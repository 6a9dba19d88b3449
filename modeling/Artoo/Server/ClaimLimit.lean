import Artoo.Lib.Automaton
import Mathlib.Logic.Function.Basic
import Mathlib.Algebra.Order.Ring.Int
import Mathlib.Data.Int.Notation
import Mathlib.Tactic.SplitIfs

/-! The attempts at pairing codes that a source has in a window of time. -/
namespace Artoo.Server.ClaimLimit
open Artoo.Lib

structure Limit where
  capacity : ℤ
  windowMs : ℤ

structure Window where
  count : ℤ
  windowStart : ℤ
  deriving DecidableEq

structure Attempt where
  source : String
  nowMs : ℤ
  deriving DecidableEq

/-- A source alone: its window after an attempt, and whether the attempt is allowed. -/
def consume (limit : Limit) (existing : Option Window) (nowMs : ℤ) : Option Window × Bool :=
  match existing with
  | none => (some ⟨1, nowMs⟩, true)
  | some window =>
    if nowMs - window.windowStart ≥ limit.windowMs then (some ⟨1, nowMs⟩, true)
    else if window.count ≥ limit.capacity then (some window, false)
    else (some { window with count := window.count + 1 }, true)

def tryConsume (limit : Limit) (windows : String → Option Window) (attempt : Attempt) :
    (String → Option Window) × Bool :=
  let (window, allowed) := consume limit (windows attempt.source) attempt.nowMs
  (Function.update windows attempt.source window, allowed)

def limiter (limit : Limit) : Automaton (String → Option Window) Attempt Bool where
  step := tryConsume limit

def single (limit : Limit) : Automaton (Option Window) Attempt Bool where
  step := fun existing attempt => consume limit existing attempt.nowMs

variable {limit : Limit} {attempts : List Attempt} {existing : Option Window} {window : Window}
  {nowMs opened : ℤ}

/-- The windows of the sources do not see each other. -/
theorem limiter_divides :
    (limiter limit).Divides (single limit) Attempt.source fun source windows => windows source where
  own _ _ := Function.update_self ..
  answer _ _ := rfl
  other _ _ _ ne := Function.update_of_ne ne _ _

/-- The first attempt of a window is allowed whatever the capacity is. -/
def Limit.most (limit : Limit) : ℤ := max 1 limit.capacity

/-- No window counts more than it allows. -/
def Within (limit : Limit) (existing : Option Window) : Prop :=
  ∀ window ∈ existing, 1 ≤ window.count ∧ window.count ≤ limit.most

theorem consume_within (within : Within limit existing) (nowMs : ℤ) :
    Within limit (consume limit existing nowMs).1 := by
  have least : 1 ≤ limit.most := le_max_left 1 limit.capacity
  have capacity : limit.capacity ≤ limit.most := le_max_right 1 limit.capacity
  unfold consume
  cases existing with
  | none => simp [Within, least]
  | some window =>
    have held := within window rfl
    simp only
    split_ifs with fresh full
    · simp [Within, least]
    · exact within
    · simp only [Within, Option.mem_def, Option.some.injEq, forall_eq']
      omega

/-- The attempts between two times that were allowed. -/
def allowedIn (since until_ : ℤ) (answered : List (Attempt × Bool)) : ℕ :=
  answered.countP fun a => decide (since ≤ a.1.nowMs) && decide (a.1.nowMs < until_) && a.2

/-- What a source may still do before the span of one window that begins at `opened` is over, if no
attempt before `opened` is left. -/
def Limit.left (limit : Limit) (opened : ℤ) : Option Window → ℤ
  | none => limit.most
  | some window =>
    if window.windowStart < opened then 2 * limit.most - window.count
    else limit.most - window.count

theorem left_nonneg (within : Within limit existing) : 0 ≤ limit.left opened existing := by
  cases existing with
  | none => exact (by decide : (0 : ℤ) ≤ 1).trans (le_max_left 1 limit.capacity)
  | some window =>
    have held := within window rfl
    unfold Limit.left
    simp only
    split_ifs <;> omega

/-- An attempt of the span uses up what is left. -/
theorem consume_left (within : Within limit existing) (after : opened ≤ nowMs)
    (before : nowMs < opened + limit.windowMs) :
    limit.left opened (consume limit existing nowMs).1 +
      (if (consume limit existing nowMs).2 then 1 else 0) ≤ limit.left opened existing := by
  have capacity : limit.capacity ≤ limit.most := le_max_right 1 limit.capacity
  cases existing with
  | none => simp [consume, Limit.left, not_lt.mpr after]
  | some window =>
    have held := within window rfl
    by_cases fresh : nowMs - window.windowStart ≥ limit.windowMs
    · -- the window before this one began before the span
      have older : window.windowStart < opened := by omega
      simp only [consume, Limit.left, if_pos fresh, if_neg (not_lt.mpr after), if_pos older]
      omega
    · by_cases full : window.count ≥ limit.capacity
      · simp [consume, fresh, full]
      · simp only [consume, Limit.left, if_neg fresh, if_neg full]
        by_cases older : window.windowStart < opened
        · simp only [if_pos older]
          omega
        · simp only [if_neg older]
          omega

theorem allowedIn_cons {since until_ : ℤ} {answered : List (Attempt × Bool)} {a : Attempt × Bool} :
    (allowedIn since until_ (a :: answered) : ℤ) = allowedIn since until_ answered +
      (if since ≤ a.1.nowMs ∧ a.1.nowMs < until_ ∧ a.2 = true then 1 else 0) := by
  unfold allowedIn
  rw [List.countP_cons]
  simp [and_assoc]

theorem single_after (sorted : attempts.Pairwise fun a b => a.nowMs ≤ b.nowMs)
    (begun : ∀ a ∈ attempts, opened ≤ a.nowMs) (within : Within limit existing) :
    (allowedIn opened (opened + limit.windowMs)
      (attempts.zip ((single limit).answers existing attempts)) : ℤ) ≤ limit.left opened existing := by
  induction attempts generalizing existing with
  | nil => simpa [allowedIn] using left_nonneg within
  | cons a rest ih =>
    have tail := ih (sorted.of_cons) (fun b member => begun b (by simp [member]))
      (consume_within within a.nowMs)
    have after := begun a (by simp)
    rw [Automaton.answers_cons, List.zip_cons_cons, allowedIn_cons]
    by_cases before : a.nowMs < opened + limit.windowMs
    · have used := consume_left within after before
      simp only [single, after, before, true_and] at tail ⊢
      omega
    · -- the span is over for this attempt and all that follow
      rw [if_neg (fun h => before h.2.1), add_zero]
      have none_left : allowedIn opened (opened + limit.windowMs)
          (rest.zip ((single limit).answers ((single limit).step existing a).1 rest)) = 0 := by
        unfold allowedIn
        rw [List.countP_eq_zero]
        intro call member
        have late := List.rel_of_pairwise_cons sorted (List.of_mem_zip member).1
        simp only [Bool.and_eq_true, decide_eq_true_eq, not_and]
        intro span
        omega
      rw [none_left]
      exact left_nonneg within

theorem left_le (within : Within limit existing) : limit.left opened existing ≤ 2 * limit.most := by
  have least : 1 ≤ limit.most := le_max_left 1 limit.capacity
  cases existing with
  | none =>
    change limit.most ≤ _
    omega
  | some window =>
    have held := within window rfl
    unfold Limit.left
    simp only
    split_ifs <;> omega

theorem single_allowed (sorted : attempts.Pairwise fun a b => a.nowMs ≤ b.nowMs)
    (within : Within limit existing) :
    (allowedIn opened (opened + limit.windowMs)
      (attempts.zip ((single limit).answers existing attempts)) : ℤ) ≤ 2 * limit.most := by
  induction attempts generalizing existing with
  | nil =>
    have least : 1 ≤ limit.most := le_max_left 1 limit.capacity
    simp only [allowedIn, Automaton.answers_nil, List.zip_nil_left, List.countP_nil]
    omega
  | cons a rest ih =>
    by_cases begun : opened ≤ a.nowMs
    · refine (single_after sorted (fun b member => ?_) within).trans (left_le within)
      rcases List.mem_cons.mp member with rfl | later
      · exact begun
      · exact begun.trans (List.rel_of_pairwise_cons sorted later)
    · rw [Automaton.answers_cons, List.zip_cons_cons, allowedIn_cons,
        if_neg (fun h => begun h.1), add_zero]
      exact ih sorted.of_cons (consume_within within a.nowMs)

/-- Whatever the other sources do meanwhile, in any span as long as a window a source has at most
twice the attempts of one window: a span meets at most two of them. -/
theorem source_allowed (limit : Limit) (attempts : List Attempt) (source : String) (opened : ℤ)
    (sorted : attempts.Pairwise fun a b => a.nowMs ≤ b.nowMs) :
    (allowedIn opened (opened + limit.windowMs)
      ((attempts.zip ((limiter limit).answers (fun _ => none) attempts)).filter
        (·.1.source = source)) : ℤ) ≤ 2 * max 1 limit.capacity := by
  rw [(limiter_divides.run source).2]
  exact single_allowed (sorted.sublist List.filter_sublist) nofun

theorem source_allowed_ten :
    (allowedIn 0 60000 (([⟨"a", 0⟩, ⟨"b", 10⟩].zip ((limiter ⟨10, 60000⟩).answers (fun _ => none)
      [⟨"a", 0⟩, ⟨"b", 10⟩])).filter (·.1.source = "a")) : ℤ) ≤ 2 * max 1 10 :=
  source_allowed ⟨10, 60000⟩ [⟨"a", 0⟩, ⟨"b", 10⟩] "a" 0 (by decide)

end Artoo.Server.ClaimLimit
