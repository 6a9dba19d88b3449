import Artoo.Node.WorktreeRuns
import Mathlib.Data.List.Chain
import Mathlib.Data.List.Induction

/-! An owned worktree is made once, from a directory of its own, and never after a failure. -/
namespace Artoo.Node.WorktreeReservation
open Artoo.Lib Artoo.Lib.Routine Artoo.Node.Porcelain

variable {a : Attempt} {st s : Now} {α : Type} {info : Stat}

/-! ## What the notes say -/

def isAsked : Note Query Answer → Bool
  | .asked _ _ => true
  | _ => false

/-- The readings since the last note of another kind: those of the part that runs. -/
def recent (notes : Notes) : Notes := notes.reverse.takeWhile isAsked

def isIssue : Note Query Answer → Bool
  | .waits (.git _ args _) => isAdd args
  | _ => false

def issues (notes : Notes) : ℕ := notes.countP isIssue

/-- The target was made, and observed at once. -/
def Claimed (a : Attempt) (notes : Notes) (info : Stat) : Prop :=
  info.directory = true ∧ info.symbolicLink = false ∧ ∃ before after,
    notes = before ++ .asked (.mkdir a.root) Made.created ::
      .asked (.lstat a.validation.canonicalTarget) (Except.ok info) :: after

/-- The target has the identity it had, and is empty, by the readings of the part that runs. -/
def Checked (a : Attempt) (notes : Notes) (info : Stat) : Prop :=
  .asked (.readdir a.root) (Except.ok ([] : List Text)) ∈ recent notes ∧
    ∃ now : Stat, .asked (.lstat a.validation.canonicalTarget) (Except.ok now) ∈ recent notes ∧
      now.identity = info.identity ∧ now.directory = true ∧ now.symbolicLink = false

inductive Next : Phase → Phase → Prop where
  | reserve : Next .prepared .reserving
  | reserved : Next .reserving .reserved
  | materialize : Next .reserved .materializing
  | materialized : Next .materializing .materialized
  | fail (phase : Phase) : Next phase .failed

/-- What holds at any time. -/
structure Kept (a : Attempt) (s : Now) : Prop where
  chain : s.state.history.IsChain Next
  last : s.state.history.getLast? = some s.state.phase
  claimed : .reserved ∈ s.state.history → ∃ info, Claimed a s.notes info ∧
    s.state.target = some ⟨a.validation.canonicalTarget, info.identity⟩
  passed : s.state.phase = .reserved ∨ s.state.phase = .materializing ∨
    s.state.phase = .materialized → .reserved ∈ s.state.history
  early : s.state.phase = .prepared ∨ s.state.phase = .reserving ∨ s.state.phase = .reserved →
    issues s.notes = 0
  once : issues s.notes ≤ 1
  each : ∀ before cwd args kind after, s.notes = before ++ .waits (.git cwd args kind) :: after →
    isAdd args = true → ∃ info, Claimed a before info ∧ Checked a before info

theorem Claimed.more {notes : Notes} (h : Claimed a notes info) (more : Notes) :
    Claimed a (notes ++ more) info := by
  obtain ⟨directory, plain, before, after, is⟩ := h
  refine ⟨directory, plain, before, after ++ more, ?_⟩
  rw [is, List.append_assoc, List.cons_append, List.cons_append]

theorem recent_asked {notes : Notes} (q : Query) (x : Answer q) :
    recent (notes ++ [.asked q x]) = .asked q x :: recent notes := by
  unfold recent
  rw [List.reverse_append, List.reverse_singleton, List.singleton_append, List.takeWhile_cons]
  rfl

theorem Checked.asked {notes : Notes} (h : Checked a notes info) (q : Query) (x : Answer q) :
    Checked a (notes ++ [.asked q x]) info := by
  obtain ⟨empty, now, same, rest⟩ := h
  unfold Checked
  rw [recent_asked]
  exact ⟨List.mem_cons_of_mem _ empty, now, List.mem_cons_of_mem _ same, rest⟩

theorem issues_snoc (notes : Notes) (n : Note Query Answer) :
    issues (notes ++ [n]) = issues notes + if isIssue n then 1 else 0 := by
  unfold issues
  rw [List.countP_append, List.countP_singleton]

theorem issues_note {n : Note Query Answer} (plain : isIssue n = false) :
    issues (note n s).notes = issues s.notes := by
  change issues (s.notes ++ [n]) = _
  rw [issues_snoc, plain]
  rfl

/-- A note is the last one, or stands among those before. -/
theorem snoc_split {β : Type} {l before after : List β} {n m : β} (is : l ++ [n] = before ++ m :: after) :
    (before = l ∧ n = m) ∨ ∃ rest, l = before ++ m :: rest := by
  induction after using List.reverseRecOn with
  | nil =>
    obtain ⟨rfl, same⟩ := List.append_inj' is rfl
    exact Or.inl ⟨rfl, List.singleton_inj.mp same⟩
  | append_singleton rest last _ =>
    right
    refine ⟨rest, ?_⟩
    rw [← List.cons_append, ← List.append_assoc] at is
    exact (List.append_inj' is rfl).1

theorem Kept.note (h : Kept a s) {n : Note Query Answer} (plain : isIssue n = false) :
    Kept a (note n s) := by
  refine ⟨h.chain, h.last, ?_, h.passed, ?_, ?_, ?_⟩
  · intro reserved
    obtain ⟨info, claimed, target⟩ := h.claimed reserved
    exact ⟨info, claimed.more _, target⟩
  · intro phase
    rw [issues_note plain]
    exact h.early phase
  · rw [issues_note plain]
    exact h.once
  · intro before cwd args kind after is add
    rcases snoc_split is with ⟨-, rfl⟩ | ⟨rest, there⟩
    · rw [isIssue, add] at plain
      cases plain
    · exact h.each before cwd args kind rest there add

theorem Kept.issue (h : Kept a s) (none_ : issues s.notes = 0) (claimed : Claimed a s.notes info)
    (checked : Checked a s.notes info) (phase : s.state.phase = .materializing) (cwd : Text)
    (args : List Text) (kind : Kind) : Kept a (Routine.note (.waits (.git cwd args kind)) s) := by
  have count : issues (s.notes ++ [.waits (.git cwd args kind)]) ≤ 1 := by
    rw [issues_snoc, none_]
    split_ifs <;> omega
  refine ⟨h.chain, h.last, ?_, h.passed, ?_, count, ?_⟩
  · intro reserved
    obtain ⟨info, claimed, target⟩ := h.claimed reserved
    exact ⟨info, claimed.more _, target⟩
  · intro early
    change s.state.phase = _ ∨ s.state.phase = _ ∨ s.state.phase = _ at early
    rw [phase] at early
    rcases early with early | early | early <;> cases early
  · intro before cwd' args' kind' after is add
    rcases snoc_split is with ⟨rfl, -⟩ | ⟨rest, there⟩
    · exact ⟨info, claimed, checked⟩
    · exact h.each before cwd' args' kind' rest there add

/-- A new phase. -/
def entered (next : Phase) (s : Now) : Now :=
  { s with state := { s.state with phase := next, history := s.state.history ++ [next] } }

theorem Kept.enter (h : Kept a s) {next : Phase} (may : Next s.state.phase next)
    (claimed : next = .reserved → ∃ info, Claimed a s.notes info ∧
      s.state.target = some ⟨a.validation.canonicalTarget, info.identity⟩)
    (passed : next = .materializing ∨ next = .materialized → .reserved ∈ s.state.history)
    (early : next = .prepared ∨ next = .reserving ∨ next = .reserved → issues s.notes = 0) :
    Kept a (entered next s) := by
  refine ⟨?_, List.getLast?_concat, ?_, ?_, early, h.once, h.each⟩
  · apply List.isChain_append.mpr ⟨h.chain, List.isChain_singleton _, ?_⟩
    intro x first y second
    rw [h.last] at first
    cases first
    cases second
    exact may
  · intro there
    rcases List.mem_append.mp there with there | there
    · exact h.claimed there
    · exact claimed (List.mem_singleton.mp there).symm
  · intro phase
    rcases phase with phase | phase
    · exact List.mem_append_right _ (List.mem_singleton.mpr phase.symm)
    · exact List.mem_append_left _ (passed phase)

theorem Kept.fail (h : Kept a s) : Kept a (entered .failed s) := by
  apply h.enter (.fail _)
  · nofun
  · intro phase
    rcases phase with phase | phase <;> cases phase
  · intro phase
    rcases phase with phase | phase | phase <;> cases phase

/-! ## The contract -/

/-- One routine works on the attempt. -/
def Busy (phase : Phase) : Prop := phase = .reserving ∨ phase = .materializing

def Settled (phase : Phase) : Prop := phase = .materialized ∨ phase = .failed

def Onward (st s : Now) : Prop :=
  Settled st.state.phase →
    Settled s.state.phase ∧ (st.state.phase = .failed → s.state.phase = .failed)

/-- While one works on the attempt, the others do nothing to it. -/
def contract (a : Attempt) : Contract State Query Answer where
  waits q st s := Kept a (note (.waits q) s) ∧ (Busy s.state.phase ∨ Settled s.state.phase) ∧ Onward st s
  rely s s' := Kept a s' ∧ s.notes <+: s'.notes ∧
    (Busy s.state.phase → s'.state = s.state ∧ issues s'.notes = issues s.notes) ∧
    (Settled s.state.phase → Settled s'.state.phase)

structure Fails (a : Attempt) (st s : Now) : Prop where
  kept : Kept a s
  onward : Onward st s
  free : ¬Busy s.state.phase

structure Succeeds (a : Attempt) (st s : Now) : Prop extends Fails a st s where
  fine : s.state.phase ≠ .failed

/-- The routine that works on the attempt, and what it knows. -/
structure Working (a : Attempt) (phase : Phase) (knows : Now → Prop) (st s : Now) : Prop where
  kept : Kept a s
  here : s.state.phase = phase
  fresh : ¬Settled st.state.phase
  known : knows s

/-- What no other changes. -/
def Stable (knows : Now → Prop) : Prop :=
  ∀ s s' : Now, s'.state = s.state → s.notes <+: s'.notes → issues s'.notes = issues s.notes →
    knows s → knows s'

variable {phase : Phase} {knows : Now → Prop}

theorem Busy.not_settled (busy : Busy phase) : ¬Settled phase := by
  rintro (rfl | rfl)
  · rcases busy with busy | busy <;> cases busy
  · rcases busy with busy | busy <;> cases busy

theorem Stable.note (stable : Stable knows) {n : Note Query Answer} (plain : isIssue n = false)
    (known : knows s) : knows (note n s) :=
  stable s (Routine.note n s) rfl (List.prefix_append _ _) (issues_note plain) known

theorem Working.note (h : Working a phase knows st s) (stable : Stable knows)
    {n : Note Query Answer} (plain : isIssue n = false) : Working a phase knows st (note n s) :=
  ⟨h.kept.note plain, h.here, h.fresh, stable.note plain h.known⟩

/-- After a wait, nothing has changed for it. -/
theorem Working.resumed (h : Working a phase knows st s) (busy : Busy phase) (stable : Stable knows)
    {q : Query} (x : Answer q) {s' : Now} (relied : (contract a).rely s s') :
    Working a phase knows (Routine.note (.resumed q x) s') (Routine.note (.resumed q x) s') := by
  obtain ⟨kept, more, same, -⟩ := relied
  have mine : Busy s.state.phase := by
    rw [h.here]
    exact busy
  obtain ⟨state, count⟩ := same mine
  have here : s'.state.phase = phase := by
    rw [state]
    exact h.here
  have free : ¬Settled s'.state.phase := by
    rw [here]
    exact busy.not_settled
  exact ⟨kept.note rfl, here, free, stable.note rfl (stable s s' state more count h.known)⟩

theorem Working.waits (h : Working a phase knows st s) (busy : Busy phase) {q : Query}
    (kept : Kept a (Routine.note (.waits q) s)) : (contract a).waits q st s := by
  refine ⟨kept, Or.inl ?_, fun settled => absurd settled h.fresh⟩
  rw [h.here]
  exact busy

theorem harmless_waits {q : Query} (harmless : Harmless q) : isIssue (.waits q) = false := by
  cases q with
  | git cwd args kind => exact harmless
  | _ => rfl

theorem working_quiet {p : Task α} (quiet : p.Quiet Harmless) (busy : Busy phase)
    (stable : Stable knows) (here : Working a phase knows st s) :
    p.Safe (contract a) (fun _ => Working a phase knows) (fun _ => Working a phase knows) st s := by
  apply quiet.safe _ _ _ here
  · intro st s q x h
    exact h.note stable rfl
  · intro st s q harmless h
    exact h.waits busy (h.kept.note (harmless_waits harmless))
  · intro st s q x s' harmless h relied
    exact (h.note stable (harmless_waits harmless)).resumed busy stable x relied

/-- Without a wait, what readings keep is enough. -/
theorem working_sync {p : Task α} (quiet : p.Quiet fun _ => False)
    (reads : ∀ s q x, knows s → knows (note (.asked q x) s)) (here : Working a phase knows st s) :
    p.Safe (contract a) (fun _ => Working a phase knows) (fun _ => Working a phase knows) st s := by
  apply quiet.safe _ _ _ here
  · intro st s q x h
    exact ⟨h.kept.note rfl, h.here, h.fresh, reads s q x h.known⟩
  · intro st s q never
    exact never.elim
  · intro st s q x s' never
    exact never.elim

/-- A routine that verifies a worktree. -/
structure Settling (a : Attempt) (st s : Now) : Prop where
  kept : Kept a s
  here : Settled s.state.phase
  onward : Onward st s

theorem settling_quiet {p : Task α} (quiet : p.Quiet Harmless) (here : Settling a st s) :
    p.Safe (contract a) (fun _ => Settling a) (fun _ => Settling a) st s := by
  apply quiet.safe _ _ _ here
  · intro st s q x h
    exact ⟨h.kept.note rfl, h.here, h.onward⟩
  · intro st s q harmless h
    exact ⟨h.kept.note (harmless_waits harmless), Or.inr h.here, h.onward⟩
  · intro st s q x s' harmless h relied
    have settled : Settled s'.state.phase := relied.2.2.2 h.here
    exact ⟨relied.1.note rfl, settled, fun _ => ⟨settled, id⟩⟩

/-! ## Failures -/

theorem fails_entered (kept : Kept a s) : Fails a st (entered .failed s) := by
  refine ⟨kept.fail, fun settled => ⟨Or.inr rfl, fun _ => rfl⟩, ?_⟩
  rintro (busy | busy) <;> cases busy

theorem fails_here (kept : Kept a s) (free : ¬Busy s.state.phase) : Fails a s s :=
  ⟨kept, fun settled => ⟨settled, id⟩, free⟩

/-- A check that only reads the phase. -/
theorem safe_throwIf {post : Unit → Now → Now → Prop} {error : Failure → Now → Now → Prop}
    {c : Contract State Query Answer} {condition : Bool} {text message : String}
    (holds : condition = false → post () st s) (raises : ∀ e, condition = true → error e st s) :
    (throwIf condition text message).Safe c post error st s := by
  cases condition with
  | false => exact holds rfl
  | true => exact raises _ rfl

theorem safe_retainFailure {post : α → Now → Now → Prop} (kept : Kept a s) (e : Failure) :
    (retainFailure a e : Task α).Safe (contract a) post (fun _ => Fails a) st s :=
  fails_entered kept

/-! ## Observations -/

theorem safe_ofExcept {x : Except String α} {post : α → Now → Now → Prop}
    {error : Failure → Now → Now → Prop} {c : Contract State Query Answer}
    (holds : ∀ y, x = .ok y → post y st s) (raises : ∀ e, error e st s) :
    (ofExcept x).Safe c post error st s := by
  cases x with
  | ok y => exact holds y rfl
  | error message => exact raises _

/-- The directory was looked at, and then only read on. -/
def Found (path : Text) (d : DirectoryIdentity) (s s' : Now) : Prop :=
  ∃ info : Stat, ∃ real : Except String Text, s' = note (.asked (.realpath path) real)
    (note (.asked (.lstat path) (Except.ok info)) s) ∧ d = ⟨path, info.identity⟩ ∧
    info.directory = true ∧ info.symbolicLink = false

/-- What readings keep is kept, and the result says what was found. -/
theorem safe_observe {keeps : Now → Now → Prop} {c : Contract State Query Answer}
    (reads : ∀ st s q x, keeps st s → keeps st (note (.asked q x) s)) (here : keeps st s)
    (path : Text) :
    (observe path).Safe c (fun d st' s' => st' = st ∧ Found path d s s' ∧ keeps st s')
      (fun _ => keeps) st s := by
  unfold observe
  intro answer
  have looked := reads st s (.lstat path) answer here
  apply safe_bind (fun y st' s' => st' = st ∧ s' = note (.asked (.lstat path) answer) s ∧ answer = .ok y)
    (safe_ofExcept (fun y is => ⟨rfl, rfl, is⟩) (fun _ => looked))
  rintro info st' s' ⟨rfl, rfl, rfl⟩
  apply safe_bind (fun _ st'' s' => st'' = st' ∧ s' = note (.asked (.lstat path) (Except.ok info)) s ∧
      (!info.directory || info.symbolicLink) = false)
    (safe_throwIf (fun plain => ⟨rfl, rfl, plain⟩) (fun _ _ => looked))
  rintro _ st'' s' ⟨rfl, rfl, plain⟩
  intro real
  have resolved := reads _ _ (.realpath path) real looked
  have found : Found path ⟨path, info.identity⟩ s (note (.asked (.realpath path) real)
      (note (.asked (.lstat path) (Except.ok info)) s)) := by
    simp only [Bool.or_eq_false_iff, Bool.not_eq_false'] at plain
    exact ⟨info, real, rfl, rfl, plain.1, plain.2⟩
  cases real with
  | error message => exact resolved
  | ok real =>
    change ((throwIf (real != path) _ _).bind _).Safe _ _ _ _ _
    unfold throwIf
    split_ifs
    · exact resolved
    · exact ⟨rfl, found, resolved⟩

/-! ## Materializing -/

/-- Of a target that was made and reserved, before its worktree is added. -/
structure Owned (a : Attempt) (info : Stat) (s : Now) : Prop where
  unused : issues s.notes = 0
  claimed : Claimed a s.notes info
  target : s.state.target = some ⟨a.validation.canonicalTarget, info.identity⟩

theorem stable_owned : Stable (Owned a info) := by
  intro s s' state more count h
  obtain ⟨rest, is⟩ := more
  refine ⟨count.trans h.unused, ?_, ?_⟩
  · rw [← is]
    exact h.claimed.more rest
  · rw [state]
    exact h.target

theorem Owned.asked (h : Owned a info s) (q : Query) (x : Answer q) : Owned a info (note (.asked q x) s) :=
  stable_owned.note rfl h

/-- The target was seen again, by the readings of the part that runs. -/
def Seen (a : Attempt) (info : Stat) (s : Now) : Prop :=
  ∃ now : Stat, .asked (.lstat a.validation.canonicalTarget) (Except.ok now) ∈ recent s.notes ∧
    now.identity = info.identity ∧ now.directory = true ∧ now.symbolicLink = false

theorem Seen.asked (h : Seen a info s) (q : Query) (x : Answer q) : Seen a info (note (.asked q x) s) := by
  obtain ⟨now, there, rest⟩ := h
  refine ⟨now, ?_, rest⟩
  change _ ∈ recent (s.notes ++ [.asked q x])
  rw [recent_asked]
  exact List.mem_cons_of_mem _ there

theorem Working.imp {knows' : Now → Prop} (h : Working a phase knows st s)
    (weaken : knows s → knows' s) : Working a phase knows' st s :=
  ⟨h.kept, h.here, h.fresh, weaken h.known⟩

theorem safe_seen (here : Working a phase (Owned a info) st s) :
    (assertIdentity ⟨a.validation.canonicalTarget, info.identity⟩).Safe (contract a)
      (fun _ => Working a phase fun s => Owned a info s ∧ Seen a info s)
      (fun _ => Working a phase (Owned a info)) st s := by
  have reads : ∀ st s q x, Working a phase (Owned a info) st s →
      Working a phase (Owned a info) st (note (.asked q x) s) :=
    fun st s q x h => h.note stable_owned rfl
  unfold assertIdentity
  apply safe_bind _ (safe_observe reads here _)
  rintro d st' s' ⟨rfl, ⟨now, real, rfl, rfl, directory, plain⟩, there⟩
  apply safe_throwIf
  · intro same
    refine ⟨there.kept, there.here, there.fresh, there.known, ?_⟩
    apply Seen.asked
    refine ⟨now, ?_, by simpa using same, directory, plain⟩
    change _ ∈ recent (s.notes ++ [_])
    rw [recent_asked]
    exact List.mem_cons_self
  · exact fun _ _ => there

theorem safe_checked (here : Working a phase (Owned a info) st s) :
    (assertBoundaries a true).Safe (contract a)
      (fun _ => Working a phase fun s => Owned a info s ∧ Checked a s.notes info)
      (fun _ => Working a phase (Owned a info)) st s := by
  have reads : ∀ (s : Now) q x, Owned a info s → Owned a info (note (.asked q x) s) :=
    fun s q x h => h.asked q x
  unfold assertBoundaries
  apply safe_bind _ (working_sync quiet_assertConfigured reads here)
  intro _ st s here
  change (a.boundaries.forM assertIdentity >>= fun _ =>
    s.state.target.toList.forM assertIdentity >>= fun _ =>
      assertTarget a s.state.target >>= fun _ => assertEmpty a).Safe _ _ _ _ _
  rw [here.known.target]
  apply safe_bind _ (working_sync (quiet_forM fun expected _ => quiet_assertIdentity expected) reads here)
  intro _ st s here
  apply safe_bind (fun _ => Working a phase fun s => Owned a info s ∧ Seen a info s)
  · change (assertIdentity _ >>= fun _ => Routine.done PUnit.unit).Safe _ _ _ _ _
    exact safe_bind _ (safe_seen here) fun _ _ _ h => h
  · intro _ st s here
    have both : ∀ (s : Now) q x, Owned a info s ∧ Seen a info s →
        Owned a info (note (.asked q x) s) ∧ Seen a info (note (.asked q x) s) :=
      fun s q x h => ⟨h.1.asked q x, h.2.asked q x⟩
    apply safe_bind _ (safe_mono (working_sync (quiet_assertTarget _) both here)
      (fun _ _ _ h => h) fun _ _ _ h => h.imp And.left)
    intro _ st s here answer
    have kept := here.kept.note (n := .asked (.readdir a.root) answer) rfl
    have known := both s _ answer here.known
    apply safe_bind (fun entries st' s' => st' = st ∧
      s' = note (.asked (.readdir a.root) answer) s ∧ answer = .ok entries)
    · exact safe_ofExcept (fun entries is => ⟨rfl, rfl, is⟩)
        fun _ => ⟨kept, here.here, here.fresh, known.1⟩
    · rintro entries st' s' ⟨rfl, rfl, rfl⟩
      apply safe_throwIf
      · intro empty
        obtain ⟨now, there, rest⟩ := known.2
        refine ⟨kept, here.here, here.fresh, known.1, ?_, now, there, rest⟩
        rw [Bool.not_eq_false', List.isEmpty_iff] at empty
        rw [empty]
        change _ ∈ recent (s.notes ++ [_])
        rw [recent_asked]
        exact List.mem_cons_self
      · exact fun _ _ => ⟨kept, here.here, here.fresh, known.1⟩

/-- The worktree is added by a routine that has just checked the target. -/
theorem safe_addWorktree
    (here : Working a .materializing (fun s => Owned a info s ∧ Checked a s.notes info) st s) :
    (addWorktree a).Safe (contract a) (fun _ => Working a .materializing fun _ => True)
      (fun _ => Working a .materializing fun _ => True) st s := by
  have busy : Busy .materializing := Or.inr rfl
  have both : ∀ (s : Now) q x, Owned a info s ∧ Checked a s.notes info →
      Owned a info (note (.asked q x) s) ∧ Checked a (note (.asked q x) s).notes info :=
    fun s q x h => ⟨h.1.asked q x, h.2.asked q x⟩
  have free : Stable fun _ => True := fun _ _ _ _ _ _ => trivial
  have less : ∀ (e : Failure) st s,
      Working a .materializing (fun s => Owned a info s ∧ Checked a s.notes info) st s →
        Working a .materializing (fun _ => True) st s := fun _ _ _ h => h.imp fun _ => trivial
  unfold addWorktree git
  change (throwIf (s.state.phase == .failed) _ _ >>= _).Safe _ _ _ _ _
  apply safe_bind _ (safe_mono (working_sync (quiet_throwIf _ _ _) both here) (fun _ _ _ h => h) less)
  intro _ st s here
  apply safe_bind _ (safe_mono (working_sync quiet_assertNotAborted both here) (fun _ _ _ h => h) less)
  intro _ st s here
  apply safe_bind _ (safe_mono (working_sync (quiet_assertBoundaries _) both here)
    (fun _ _ _ h => h) less)
  intro _ st s here
  have kept := here.kept.issue here.known.1.unused here.known.1.claimed here.known.2 here.here
    a.validation.canonicalSource ["worktree".toList, "add".toList, "-b".toList, a.branch, "--".toList,
      a.root, a.validation.sourceHead] .materialize
  refine ⟨here.waits busy kept, fun s' answer relied => ?_⟩
  have issued : Working a .materializing (fun _ => True) st (note (.waits (worktreeAdd a)) s) :=
    ⟨kept, here.here, here.fresh, trivial⟩
  have resumed := issued.resumed busy free answer relied
  apply working_quiet _ busy free resumed
  apply quiet_bind (quiet_ofExcept answer)
  intro result later
  apply quiet_bind (quiet_throwIf _ _ _)
  intro _
  apply quiet_bind quiet_assertNotAborted
  intro _
  apply quiet_bind (quiet_assertBoundaries false)
  intro _
  apply quiet_bind (quiet_throwIf _ _ _)
  intro _
  trivial

theorem working_free (h : Working a phase knows st s) : Working a phase (fun _ => True) st s :=
  h.imp fun _ => trivial

theorem safe_materializeBody (here : Working a .materializing (Owned a info) st s) :
    (materializeBody a).Safe (contract a) (fun _ => Succeeds a)
      (fun _ => Working a .materializing fun _ => True) st s := by
  have busy : Busy .materializing := Or.inr rfl
  have free : Stable fun _ => True := fun _ _ _ _ _ _ => trivial
  have lost : ∀ (e : Failure) st s, Working a .materializing (Owned a info) st s →
      Working a .materializing (fun _ => True) st s := fun _ _ _ => working_free
  have ahead {β : Type} {p : Task β} (quiet : p.Quiet Harmless) {st s : Now}
      (here : Working a .materializing (Owned a info) st s) :
      p.Safe (contract a) (fun _ => Working a .materializing (Owned a info))
        (fun _ => Working a .materializing fun _ => True) st s :=
    safe_mono (working_quiet quiet busy stable_owned here) (fun _ _ _ h => h) lost
  have after {β : Type} {p : Task β} (quiet : p.Quiet Harmless) {st s : Now}
      (here : Working a .materializing (fun _ => True) st s) :
      p.Safe (contract a) (fun _ => Working a .materializing fun _ => True)
        (fun _ => Working a .materializing fun _ => True) st s :=
    working_quiet quiet busy free here
  unfold materializeBody
  apply safe_bind _ (ahead quiet_assertNotAborted here)
  intro _ st s here
  apply safe_bind _ (ahead (quiet_assertBoundaries true) here)
  intro _ st s here
  apply safe_bind _ (ahead (quiet_assertRepository false) here)
  intro _ st s here
  apply safe_bind _ (safe_mono (safe_checked here) (fun _ _ _ h => h) lost)
  intro _ st s here
  have both : ∀ (s : Now) q x, Owned a info s ∧ Checked a s.notes info →
      Owned a info (note (.asked q x) s) ∧ Checked a (note (.asked q x) s).notes info :=
    fun s q x h => ⟨h.1.asked q x, h.2.asked q x⟩
  apply safe_bind _ (safe_mono (working_sync quiet_assertNotAborted both here) (fun _ _ _ h => h)
    fun _ _ _ => working_free)
  intro _ st s here
  apply safe_bind _ (safe_addWorktree here)
  intro _ st s here
  apply safe_bind _ (after (quiet_assertBoundaries false) here)
  intro _ st s here
  apply safe_bind _ (after (quiet_assertRepository true) here)
  intro _ st s here
  apply safe_bind _ (after (quiet_assertBoundaries false) here)
  intro _ st s here
  apply safe_bind _ (after quiet_assertNotAborted here)
  intro _ st s here
  change (throwIf (s.state.phase != .materializing) _ _ >>= _).Safe _ _ _ _ _
  apply safe_bind _ (after (quiet_throwIf _ _ _) here)
  intro _ st s here
  have may : Next s.state.phase .materialized := by
    rw [here.here]
    exact .materialized
  have kept : Kept a (entered .materialized s) := by
    apply here.kept.enter may
    · nofun
    · intro _
      exact here.kept.passed (Or.inr (Or.inl here.here))
    · intro early
      rcases early with early | early | early <;> cases early
  refine ⟨⟨⟨kept.chain, kept.last, kept.claimed, kept.passed, kept.early, kept.once, kept.each⟩,
    fun settled => absurd settled here.fresh, ?_⟩, nofun⟩
  rintro (busy | busy) <;> cases busy

theorem safe_materialize (kept : Kept a s) (idle : ¬Busy s.state.phase) (reservation : ℕ) :
    (materializeOwnedWorktree a reservation).Safe (contract a) (fun _ => Succeeds a)
      (fun _ => Fails a) s s := by
  unfold materializeOwnedWorktree
  change (throwIf (!decide (reservation < s.state.reservedStates) || s.state.phase != .reserved) _ _ >>=
    _).Safe _ _ _ _ _
  apply safe_bind (fun _ st' s' => st' = s ∧ s' = s ∧ s.state.phase = .reserved)
  · apply safe_throwIf
    · intro plain
      simp only [Bool.or_eq_false_iff, bne_eq_false_iff_eq] at plain
      exact ⟨rfl, rfl, plain.2⟩
    · exact fun _ _ => fails_here kept idle
  · rintro _ st' s' ⟨rfl, rfl, reserved⟩
    obtain ⟨info, claimed, target⟩ := kept.claimed (kept.passed (Or.inl reserved))
    have may : Next s'.state.phase .materializing := by
      rw [reserved]
      exact .materialize
    have entering : Kept a (entered .materializing s') := by
      apply kept.enter may
      · nofun
      · intro _
        exact kept.passed (Or.inl reserved)
      · intro early
        rcases early with early | early | early <;> cases early
    have fresh : ¬Settled s'.state.phase := by
      rw [reserved]
      rintro (settled | settled) <;> cases settled
    have here : Working a .materializing (Owned a info) s' (entered .materializing s') :=
      ⟨entering, rfl, fresh, kept.early (Or.inr (Or.inr reserved)), claimed, target⟩
    apply safe_recover (fun _ => Working a .materializing fun _ => True) (safe_materializeBody here)
    intro e st s working
    exact safe_retainFailure working.kept e

/-! ## Reserving -/

theorem safe_claimTarget (here : Working a .reserving (fun _ => True) st s) :
    (claimTarget a).Safe (contract a)
      (fun _ st s => Working a .reserving (fun _ => True) st s ∧
        ∃ before, s.notes = before ++ [.asked (.mkdir a.root) Made.created])
      (fun _ => Working a .reserving fun _ => True) st s := by
  have busy : Busy .reserving := Or.inl rfl
  have free : Stable fun _ => True := fun _ _ _ _ _ _ => trivial
  have ahead {β : Type} {p : Task β} (quiet : p.Quiet Harmless) {st s : Now}
      (here : Working a .reserving (fun _ => True) st s) :
      p.Safe (contract a) (fun _ => Working a .reserving fun _ => True)
        (fun _ => Working a .reserving fun _ => True) st s :=
    working_quiet quiet busy free here
  unfold claimTarget
  apply safe_bind _ (ahead quiet_assertNotAborted here)
  intro _ st s here
  apply safe_bind _ (ahead (quiet_assertBoundaries false) here)
  intro _ st s here
  have wait : (waiting Query.preflight : Task _).Quiet Harmless :=
    ⟨trivial, fun _ => trivial⟩
  apply safe_bind _ (ahead wait here)
  intro answer st s here
  apply safe_bind _ (ahead (quiet_ofExcept answer) here)
  intro current st s here
  apply safe_bind _ (ahead (quiet_throwIf _ _ _) here)
  intro _ st s here
  apply safe_bind _ (ahead (quiet_assertBoundaries false) here)
  intro _ st s here
  apply safe_bind _ (ahead quiet_assertNotAborted here)
  intro _ st s here made
  have asked := here.note (n := .asked (.mkdir a.root) made) free rfl
  cases made with
  | created => exact ⟨asked, s.notes, rfl⟩
  | exists_ => exact asked
  | failed message => exact asked

theorem safe_observeTarget (here : Working a .reserving (fun _ => True) st s)
    (made : ∃ before, s.notes = before ++ [.asked (.mkdir a.root) Made.created]) :
    (observeTarget a).Safe (contract a) (fun _ => Succeeds a)
      (fun _ => Working a .reserving fun _ => True) st s := by
  have busy : Busy .reserving := Or.inl rfl
  have free : Stable fun _ => True := fun _ _ _ _ _ _ => trivial
  obtain ⟨before, is⟩ := made
  unfold observeTarget
  apply safe_bind _ (safe_observe (fun _ _ _ _ h => h.note free rfl) here _)
  rintro d st s' ⟨rfl, ⟨info, real, rfl, rfl, directory, plain⟩, there⟩
  have claimed : Claimed a (note (.asked (.realpath a.validation.canonicalTarget) real)
      (note (.asked (.lstat a.validation.canonicalTarget) (Except.ok info)) s)).notes info := by
    refine ⟨directory, plain, before, [.asked (.realpath a.validation.canonicalTarget) real], ?_⟩
    change (s.notes ++ [_]) ++ [_] = _
    rw [is]
    simp
  have reads : ∀ (s : Now) q x, Claimed a s.notes info ∧
      s.state.target = some ⟨a.validation.canonicalTarget, info.identity⟩ →
      Claimed a (note (.asked q x) s).notes info ∧
        (note (.asked q x) s).state.target = some ⟨a.validation.canonicalTarget, info.identity⟩ :=
    fun s q x h => ⟨h.1.more _, h.2⟩
  have marked : Working a .reserving (fun s => Claimed a s.notes info ∧
      s.state.target = some ⟨a.validation.canonicalTarget, info.identity⟩) st
      { note (.asked (.realpath a.validation.canonicalTarget) real)
        (note (.asked (.lstat a.validation.canonicalTarget) (Except.ok info)) s) with
        state := { s.state with target := some ⟨a.validation.canonicalTarget, info.identity⟩ } } :=
    ⟨⟨there.kept.chain, there.kept.last, fun _ => ⟨info, claimed, rfl⟩, there.kept.passed,
      there.kept.early, there.kept.once, there.kept.each⟩, there.here, there.fresh, claimed, rfl⟩
  change (assertBoundaries a true >>= _).Safe _ _ _ _ _
  apply safe_bind _ (safe_mono (working_sync (quiet_assertBoundaries true) reads marked)
    (fun _ _ _ h => h) fun _ _ _ => working_free)
  intro _ st s here
  have may : Next s.state.phase .reserved := by
    rw [here.here]
    exact .reserved
  have kept : Kept a (entered .reserved s) := by
    apply here.kept.enter may
    · exact fun _ => ⟨info, here.known⟩
    · intro phase
      rcases phase with phase | phase <;> cases phase
    · intro _
      exact here.kept.early (Or.inr (Or.inl here.here))
  refine ⟨⟨⟨kept.chain, kept.last, kept.claimed, kept.passed, kept.early, kept.once, kept.each⟩,
    fun settled => absurd settled here.fresh, ?_⟩, nofun⟩
  rintro (busy | busy) <;> cases busy

theorem safe_reserve (kept : Kept a s) (idle : ¬Busy s.state.phase) :
    (reserveOwnedWorktree a).Safe (contract a) (fun _ => Succeeds a) (fun _ => Fails a) s s := by
  unfold reserveOwnedWorktree
  change (throwIf (s.state.phase != .prepared) _ _ >>= _).Safe _ _ _ _ _
  apply safe_bind (fun _ st' s' => st' = s ∧ s' = s ∧ s.state.phase = .prepared)
  · apply safe_throwIf
    · intro plain
      exact ⟨rfl, rfl, by simpa using plain⟩
    · exact fun _ _ => fails_here kept idle
  · rintro _ st' s' ⟨rfl, rfl, prepared⟩
    have may : Next s'.state.phase .reserving := by
      rw [prepared]
      exact .reserve
    have entering : Kept a (entered .reserving s') := by
      apply kept.enter may
      · nofun
      · intro phase
        rcases phase with phase | phase <;> cases phase
      · intro _
        exact kept.early (Or.inl prepared)
    have fresh : ¬Settled s'.state.phase := by
      rw [prepared]
      rintro (settled | settled) <;> cases settled
    have here : Working a .reserving (fun _ => True) s' (entered .reserving s') :=
      ⟨entering, rfl, fresh, trivial⟩
    apply safe_recover (fun _ => Working a .reserving fun _ => True)
    · have claims : ((claimTarget a).recover fun e => (.fail (false, e) :
          Routine State Query Answer (Bool × Failure) Unit)).Safe (contract a) _
          (fun _ => Working a .reserving fun _ => True) s' (entered .reserving s') :=
        safe_recover _ (safe_claimTarget here) fun e st s h => h
      apply safe_bind _ claims
      rintro _ st s ⟨working, made⟩
      exact safe_recover _ (safe_observeTarget working made) fun e st s h => h
    · rintro ⟨acquired, e⟩ st s working
      have failed : Fails a st (entered .failed s) := fails_entered working.kept
      cases acquired with
      | false => exact failed
      | true => exact fails_entered failed.kept

/-! ## Verifying -/

/-- Between its check of the phase and its end the boundary check does not wait. -/
theorem safe_localBoundary (kept : Kept a s) (idle : ¬Busy s.state.phase) (onward : Onward st s)
    (worktree : ℕ) :
    (assertOwnedWorktreeLocalBoundary a worktree).Safe (contract a) (fun _ => Succeeds a)
      (fun _ => Fails a) st s := by
  unfold assertOwnedWorktreeLocalBoundary
  change (throwIf (!decide (worktree < s.state.materializedStates) || s.state.phase != .materialized)
    _ _ >>= _).Safe _ _ _ _ _
  apply safe_bind (fun _ st' s' => st' = st ∧ s' = s ∧ s.state.phase = .materialized)
  · apply safe_throwIf
    · intro plain
      simp only [Bool.or_eq_false_iff, bne_eq_false_iff_eq] at plain
      exact ⟨rfl, rfl, plain.2⟩
    · exact fun _ _ => ⟨kept, onward, idle⟩
  · rintro _ st' s' ⟨rfl, rfl, materialized⟩
    have fine : Succeeds a st' s' :=
      ⟨⟨kept, onward, idle⟩, by rw [materialized]; nofun⟩
    have quiet : (do assertNotAborted; assertBoundaries a false : Task Unit).Quiet fun _ => False :=
      quiet_bind quiet_assertNotAborted fun _ => quiet_assertBoundaries false
    apply safe_recover (fun _ => Succeeds a)
    · apply quiet.safe _ _ _ fine
      · intro st s q x h
        exact ⟨⟨h.kept.note rfl, h.onward, h.free⟩, h.fine⟩
      · exact fun _ _ _ never => never.elim
      · exact fun _ _ _ _ _ never => never.elim
    · intro e st s h
      exact safe_retainFailure h.kept e

theorem safe_assertMaterialized (kept : Kept a s) (idle : ¬Busy s.state.phase) (worktree : ℕ) :
    (assertOwnedMaterializedWorktree a worktree).Safe (contract a) (fun _ => Succeeds a)
      (fun _ => Fails a) s s := by
  unfold assertOwnedMaterializedWorktree
  change (throwIf (!decide (worktree < s.state.materializedStates) || s.state.phase != .materialized)
    _ _ >>= _).Safe _ _ _ _ _
  apply safe_bind (fun _ st' s' => st' = s ∧ s' = s ∧ s.state.phase = .materialized)
  · apply safe_throwIf
    · intro plain
      simp only [Bool.or_eq_false_iff, bne_eq_false_iff_eq] at plain
      exact ⟨rfl, rfl, plain.2⟩
    · exact fun _ _ => fails_here kept idle
  · rintro _ st' s' ⟨rfl, rfl, materialized⟩
    have here : Settling a s' s' :=
      ⟨kept, Or.inl materialized, fun settled => ⟨settled, id⟩⟩
    apply safe_recover (fun _ st s => Kept a s)
    · apply safe_bind _ (safe_mono (settling_quiet (quiet_assertBoundaries false) here)
        (fun _ _ _ h => h) fun _ _ _ h => h.kept)
      intro _ st s here
      apply safe_bind _ (safe_mono (settling_quiet (quiet_assertRepository true) here)
        (fun _ _ _ h => h) fun _ _ _ h => h.kept)
      intro _ st s here
      have idle : ¬Busy s.state.phase := fun busy => busy.not_settled here.here
      exact safe_mono (safe_localBoundary here.kept idle here.onward worktree) (fun _ _ _ h => h)
        fun _ _ _ h => h.kept
    · intro e st s kept
      exact safe_retainFailure kept e

theorem safe_code (kept : Kept a s) (idle : ¬Busy s.state.phase) (call : Call) :
    (code a call).Safe (contract a) (fun _ => Succeeds a) (fun _ => Fails a) s s := by
  cases call with
  | reserve => exact safe_bind _ (safe_reserve kept idle) fun _ _ _ h => h
  | materialize reservation =>
    exact safe_bind _ (safe_materialize kept idle reservation) fun _ _ _ h => h
  | assertMaterialized worktree => exact safe_assertMaterialized kept idle worktree
  | assertLocalBoundary worktree =>
    exact safe_localBoundary kept idle (fun settled => ⟨settled, id⟩) worktree

/-- While one works on the attempt, a call fails at once. -/
theorem safe_busy (busy : Busy s.state.phase) (call : Call) :
    (code a call).Safe ⟨fun _ _ _ => False, fun _ _ => False⟩ (fun _ _ _ => False)
      (fun _ _ s' => s' = s) s s := by
  have guarded {β : Type} {next : Unit → Task β} {condition : Bool} {text message : String}
      (holds : condition = true) : (throwIf condition text message >>= next).Safe
        ⟨fun _ _ _ => False, fun _ _ => False⟩ (fun _ _ _ => False) (fun _ _ s' => s' = s) s s := by
    rw [holds]
    exact rfl
  have other {phase : Phase} (free : ¬Busy phase) : (s.state.phase != phase) = true := by
    rw [bne_iff_ne]
    rintro rfl
    exact free busy
  cases call with
  | reserve =>
    apply safe_bind (fun _ _ _ => False) (guarded (other _)) fun _ _ _ h => h.elim
    rintro (same | same) <;> cases same
  | materialize reservation =>
    apply safe_bind (fun _ _ _ => False) (guarded _) fun _ _ _ h => h.elim
    rw [other, Bool.or_true]
    rintro (same | same) <;> cases same
  | assertMaterialized worktree =>
    apply guarded
    rw [other, Bool.or_true]
    rintro (same | same) <;> cases same
  | assertLocalBoundary worktree =>
    apply guarded
    rw [other, Bool.or_true]
    rintro (same | same) <;> cases same

/-! ## The interleavings -/

theorem rely_refl (kept : Kept a s) : (contract a).rely s s :=
  ⟨kept, List.prefix_refl _, fun _ => ⟨rfl, rfl⟩, id⟩

theorem rely_trans {s' s'' : Now} (first : (contract a).rely s s') (last : (contract a).rely s' s'') :
    (contract a).rely s s'' := by
  obtain ⟨-, more, same, settled⟩ := first
  obtain ⟨kept, more', same', settled'⟩ := last
  refine ⟨kept, more.trans more', fun busy => ?_, fun h => settled' (settled h)⟩
  obtain ⟨state, count⟩ := same busy
  have busy' : Busy s'.state.phase := by
    rw [state]
    exact busy
  obtain ⟨state', count'⟩ := same' busy'
  exact ⟨state'.trans state, count'.trans count⟩

/-- Between two steps. One routine waits while the attempt is worked on, and none before. -/
structure Sound (a : Attempt) (t : World) : Prop where
  kept : Kept a t.shared
  resumes : ∀ (i : ℕ) q (next : Answer q → Task Unit), t.tasks[i]? = some (Routine.await q next) → ∀ s' x, (contract a).rely t.shared s' →
    (next x).Safe (contract a) (fun _ => Succeeds a) (fun _ => Fails a) (note (.resumed q x) s')
      (note (.resumed q x) s')
  waiting : ∀ (i : ℕ) q (next : Answer q → Task Unit), t.tasks[i]? = some (Routine.await q next) →
    Settled t.shared.state.phase ∨ Busy t.shared.state.phase ∧
      ∀ (j : ℕ) q' (next' : Answer q' → Task Unit), t.tasks[j]? = some (Routine.await q' next') → j = i

/-- After a failure nothing succeeds. -/
def After (s s' : Now) : Prop :=
  ∃ more, s'.notes = s.notes ++ more ∧
    (s.state.phase = .failed → s'.state.phase = .failed ∧ .ended true ∉ more)

theorem After.refl (s : Now) : After s s :=
  ⟨[], (List.append_nil _).symm, fun failed => ⟨failed, List.not_mem_nil⟩⟩

theorem After.trans {s' s'' : Now} (first : After s s') (last : After s' s'') : After s s'' := by
  obtain ⟨more, is, failed⟩ := first
  obtain ⟨more', is', failed'⟩ := last
  refine ⟨more ++ more', by rw [is', is, List.append_assoc], fun h => ?_⟩
  obtain ⟨here, none_⟩ := failed h
  obtain ⟨there, none'⟩ := failed' here
  exact ⟨there, fun ended => (List.mem_append.mp ended).elim none_ none'⟩

/-- Where the part of a routine leaves the others. -/
structure Segment (a : Attempt) (st : Now) (r : Task Unit × Now) : Prop where
  kept : Kept a (Thread.rest r)
  onward : Onward st (Thread.rest r)
  after : After st (Thread.rest r)
  resumes : ∀ q (next : Answer q → Task Unit), r.1 = Routine.await q next → ∀ s' x, (contract a).rely (Thread.rest r) s' →
    (next x).Safe (contract a) (fun _ => Succeeds a) (fun _ => Fails a) (note (.resumed q x) s')
      (note (.resumed q x) s')
  waiting : ∀ q (next : Answer q → Task Unit), r.1 = Routine.await q next →
    Busy (Thread.rest r).state.phase ∨ Settled (Thread.rest r).state.phase

theorem segment_advance {p : Task Unit}
    (safe : p.Safe (contract a) (fun _ => Succeeds a) (fun _ => Fails a) s s) (oracle : Oracle) :
    Segment a s (p.advance oracle s) := by
  have rests := rests_advance safe oracle
  obtain ⟨more, notes, plain⟩ := notes_advance p oracle s
  generalize p.advance oracle s = r at rests notes
  obtain ⟨task, now⟩ := r
  dsimp only at notes
  cases task with
  | done x =>
    refine ⟨rests.kept.note rfl, rests.onward, ⟨more ++ [.ended true], ?_, fun failed => ?_⟩, nofun,
      nofun⟩
    · change now.notes ++ [_] = _
      rw [notes, List.append_assoc]
    · exact absurd ((rests.onward (Or.inr failed)).2 failed) rests.fine
  | fail e =>
    refine ⟨rests.kept.note rfl, rests.onward, ⟨more ++ [.ended false], ?_, fun failed => ?_⟩, nofun,
      nofun⟩
    · change now.notes ++ [_] = _
      rw [notes, List.append_assoc]
    · refine ⟨(rests.onward (Or.inr failed)).2 failed, fun ended => ?_⟩
      rcases List.mem_append.mp ended with ended | ended
      · exact plain true ended
      · cases List.mem_singleton.mp ended
  | await q next =>
    obtain ⟨last, rfl, ⟨kept, phase, onward⟩, rest⟩ := rests
    refine ⟨kept, onward, ⟨more, notes, fun failed => ?_⟩, ?_, fun _ _ _ => phase⟩
    · exact ⟨(onward (Or.inr failed)).2 failed, plain true⟩
    · intro q' next' is
      cases is
      exact rest
  | get next => exact rests.elim
  | set change next => exact rests.elim
  | ask q next => exact rests.elim

/-- One routine has run on from `st`, and the others still wait. -/
theorem sound_segment {t : World} (h : Sound a t) {r : Task Unit × Now} (segment : Segment a st r)
    (state : st.state = t.shared.state) (more : t.shared.notes <+: st.notes) {i : ℕ}
    (others : ∀ (j : ℕ) q (next : Answer q → Task Unit), j ≠ i → t.tasks[j]? = some (Routine.await q next) →
      Settled t.shared.state.phase)
    {tasks : List (Task Unit)} (mine : tasks[i]? = some r.1)
    (same : ∀ j, j ≠ i → tasks[j]? = t.tasks[j]?) : Sound a { shared := Thread.rest r, tasks } := by
  obtain ⟨added, notes, -⟩ := segment.after
  have grown : t.shared.notes <+: (Thread.rest r).notes := by
    rw [notes]
    exact more.trans (List.prefix_append _ _)
  have settles (settled : Settled t.shared.state.phase) : Settled (Thread.rest r).state.phase := by
    rw [← state] at settled
    exact (segment.onward settled).1
  refine ⟨segment.kept, fun j q next there s' x relied => ?_, fun j q next there => ?_⟩
  · by_cases is : j = i
    · rw [is] at there
      exact segment.resumes q next (Option.some.inj (mine.symm.trans there)) s' x relied
    · rw [same j is] at there
      have settled := others j q next is there
      apply h.resumes j q next there s' x
      have step : (contract a).rely t.shared (Thread.rest r) :=
        ⟨segment.kept, grown, fun busy => absurd settled busy.not_settled, settles⟩
      exact rely_trans step relied
  · by_cases settled : Settled (Thread.rest r).state.phase
    · exact Or.inl settled
    · right
      have alone : ∀ (k : ℕ) q' (next' : Answer q' → Task Unit),
          tasks[k]? = some (Routine.await q' next') → k = i := by
        intro k q' next' waits
        by_contra other
        rw [same k other] at waits
        exact settled (settles (others k q' next' other waits))
      have first := alone j q next there
      refine ⟨?_, fun k q' next' waits => (alone k q' next' waits).trans first.symm⟩
      rw [first] at there
      exact (segment.waiting q next (Option.some.inj (mine.symm.trans there))).resolve_right settled

theorem sound_step {t : World} (h : Sound a t) (oracle : Oracle) (event : Thread.Event Call) :
    Sound a (Thread.step (code a) oracle t event) ∧
      After t.shared (Thread.step (code a) oracle t event).shared := by
  cases event with
  | call input =>
    have mine (r : Task Unit) : (t.tasks ++ [r])[t.tasks.length]? = some r := by simp
    have same (r : Task Unit) : ∀ j, j ≠ t.tasks.length → (t.tasks ++ [r])[j]? = t.tasks[j]? := by
      intro j other
      rcases Nat.lt_or_gt_of_ne other with less | more
      · exact List.getElem?_append_left less
      · rw [List.getElem?_eq_none (by simp; omega), List.getElem?_eq_none (by omega)]
    by_cases busy : Busy t.shared.state.phase
    · have rests := rests_advance (safe_busy (a := a) busy input) oracle
      unfold Thread.step
      dsimp only
      generalize (code a input).advance oracle t.shared = r at rests
      obtain ⟨task, now⟩ := r
      cases task with
      | fail e =>
        obtain rfl : now = t.shared := rests
        have step : (contract a).rely t.shared (note (.ended false) t.shared) :=
          ⟨h.kept.note rfl, List.prefix_append _ _, fun _ => ⟨rfl, issues_note rfl⟩, id⟩
        have old {j : ℕ} {q : Query} {next : Answer q → Task Unit}
            (there : (t.tasks ++ [.fail e])[j]? = some (Routine.await q next)) :
            t.tasks[j]? = some (Routine.await q next) := by
          by_cases last : j = t.tasks.length
          · rw [last, mine] at there
            cases there
          · rwa [same _ j last] at there
        refine ⟨⟨h.kept.note rfl, fun j q next there s' x relied => ?_, fun j q next there => ?_⟩,
          [.ended false], rfl, fun failed => ⟨failed, by simp⟩⟩
        · exact h.resumes j q next (old there) s' x (rely_trans step relied)
        · rcases h.waiting j q next (old there) with settled | ⟨busy, alone⟩
          · exact Or.inl settled
          · exact Or.inr ⟨busy, fun k q' next' waits => alone k q' next' (old waits)⟩
      | await q next =>
        obtain ⟨_, _, never, _⟩ := rests
        exact never.elim
      | _ => exact rests.elim
    · have segment := segment_advance (safe_code h.kept busy input) oracle
      refine ⟨sound_segment h segment rfl (List.prefix_refl _) ?_ (mine _) (same _), segment.after⟩
      intro j q next _ there
      exact (h.waiting j q next there).resolve_right fun both => busy both.1
  | resume i =>
    unfold Thread.step
    dsimp only
    cases found : t.tasks[i]? with
    | none => exact ⟨h, After.refl _⟩
    | some task =>
      cases task with
      | await q next =>
        dsimp only
        have safe := h.resumes i q next found t.shared (oracle t.shared.notes.length q)
          (rely_refl h.kept)
        have segment := segment_advance safe oracle
        have long : i < t.tasks.length := (List.getElem?_eq_some_iff.mp found).1
        refine ⟨sound_segment h segment rfl (List.prefix_append _ _) ?_
          (List.getElem?_set_self long) fun j other => List.getElem?_set_ne (Ne.symm other), ?_⟩
        · intro j q' next' other there
          rcases h.waiting i q next found with settled | ⟨_, alone⟩
          · exact settled
          · exact absurd (alone j q' next' there) other
        · have resumed : After t.shared (note (.resumed q (oracle t.shared.notes.length q)) t.shared) :=
            ⟨[_], rfl, fun failed => ⟨failed, by simp⟩⟩
          exact resumed.trans segment.after
      | _ => exact ⟨h, After.refl _⟩

theorem sound_run {t : World} (h : Sound a t) (oracle : Oracle) (events : List (Thread.Event Call)) :
    Sound a (Thread.run (code a) oracle t events) ∧
      After t.shared (Thread.run (code a) oracle t events).shared := by
  unfold Thread.run
  induction events generalizing t with
  | nil => exact ⟨h, After.refl _⟩
  | cons event events ih =>
    obtain ⟨sound, first⟩ := sound_step h oracle event
    obtain ⟨last, rest⟩ := ih sound
    exact ⟨last, first.trans rest⟩

theorem sound_prepared (a : Attempt) : Sound a { shared := { state := {} } } := by
  refine ⟨⟨List.isChain_singleton _, rfl, ?_, ?_, fun _ => rfl, Nat.zero_le _, ?_⟩, nofun, nofun⟩
  · intro reserved
    cases List.mem_singleton.mp reserved
  · intro phase
    rcases phase with phase | phase | phase <;> cases phase
  · intro before cwd args kind after is
    exact absurd is.symm (List.append_ne_nil_of_right_ne_nil _ (List.cons_ne_nil _ _))

/-- A worktree is added at most once, to a directory that the attempt made and that is checked right
before; a reservation has made its target; the phases advance; and after a failure no call succeeds. -/
theorem owned_worktree_once (a : Attempt) (oracle : Oracle) (events : List (Thread.Event Call)) :
    let t := run a oracle events
    issues t.shared.notes ≤ 1 ∧
    (∀ before cwd args kind after,
      t.shared.notes = before ++ .waits (.git cwd args kind) :: after → isAdd args = true →
        ∃ info, Claimed a before info ∧ Checked a before info) ∧
    (.reserved ∈ t.shared.state.history → ∃ info, Claimed a t.shared.notes info ∧
      t.shared.state.target = some ⟨a.validation.canonicalTarget, info.identity⟩) ∧
    t.shared.state.history.IsChain Next ∧
    t.shared.state.history.getLast? = some t.shared.state.phase ∧
    (t.shared.state.phase = .failed → ∀ later,
      let t' := Thread.run (code a) oracle t later
      t'.shared.state.phase = .failed ∧
        ∃ more, t'.shared.notes = t.shared.notes ++ more ∧ .ended true ∉ more) := by
  intro t
  have sound : Sound a t := (sound_run (sound_prepared a) oracle events).1
  refine ⟨sound.kept.once, sound.kept.each, sound.kept.claimed, sound.kept.chain, sound.kept.last, ?_⟩
  intro failed later t'
  obtain ⟨more, is, rest⟩ := (sound_run sound oracle later).2
  obtain ⟨here, none_⟩ := rest failed
  exact ⟨here, more, is, none_⟩

end Artoo.Node.WorktreeReservation
