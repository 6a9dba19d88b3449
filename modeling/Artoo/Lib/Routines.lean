import Mathlib.Data.List.Basic

/-! Routines of one thread: each runs until it waits for an answer from outside, and others run meanwhile.
A routine reads what is outside, and reads and changes what the routines share. -/
namespace Artoo.Lib

/-- `σ` what the routines share, `κ` the questions to the outside, `ε` the errors. -/
inductive Routine (σ κ : Type) (answer : κ → Type) (ε α : Type) : Type where
  | done (a : α)
  | fail (e : ε)
  | get (next : σ → Routine σ κ answer ε α)
  | set (change : σ → σ) (next : Routine σ κ answer ε α)
  | ask (q : κ) (next : answer q → Routine σ κ answer ε α)
  | await (q : κ) (next : answer q → Routine σ κ answer ε α)

/-- What happens at the outside: an answer at once, a wait, and the answer to it; and the end of a call. -/
inductive Note (κ : Type) (answer : κ → Type) where
  | asked (q : κ) (a : answer q)
  | waits (q : κ)
  | resumed (q : κ) (a : answer q)
  | ended (success : Bool)

structure Shared (σ κ : Type) (answer : κ → Type) where
  state : σ
  notes : List (Note κ answer) := []

namespace Routine

variable {σ κ : Type} {answer : κ → Type} {ε ε' α β : Type}

def bind (p : Routine σ κ answer ε α) (f : α → Routine σ κ answer ε β) : Routine σ κ answer ε β :=
  match p with
  | done a => f a
  | fail e => fail e
  | get next => get fun s => (next s).bind f
  | set change next => set change (next.bind f)
  | ask q next => ask q fun a => (next a).bind f
  | await q next => await q fun a => (next a).bind f

instance : Monad (Routine σ κ answer ε) where
  pure := done
  bind := bind

/-- `try … catch` -/
def recover (p : Routine σ κ answer ε α) (handle : ε → Routine σ κ answer ε' α) :
    Routine σ κ answer ε' α :=
  match p with
  | done a => done a
  | fail e => handle e
  | get next => get fun s => (next s).recover handle
  | set change next => set change (next.recover handle)
  | ask q next => ask q fun a => (next a).recover handle
  | await q next => await q fun a => (next a).recover handle

def read : Routine σ κ answer ε σ := get done

def modify (change : σ → σ) : Routine σ κ answer ε Unit := set change (done ())

def reading (q : κ) : Routine σ κ answer ε (answer q) := ask q done

def waiting (q : κ) : Routine σ κ answer ε (answer q) := await q done

def note (n : Note κ answer) (s : Shared σ κ answer) : Shared σ κ answer :=
  { s with notes := s.notes ++ [n] }

/-- Until it ends or waits; the outside answers by the number of notes so far. -/
def advance (oracle : ℕ → (q : κ) → answer q) :
    Routine σ κ answer ε α → Shared σ κ answer → Routine σ κ answer ε α × Shared σ κ answer
  | done a, s => (done a, s)
  | fail e, s => (fail e, s)
  | get next, s => (next s.state).advance oracle s
  | set change next, s => next.advance oracle { s with state := change s.state }
  | ask q next, s =>
    let a := oracle s.notes.length q
    (next a).advance oracle (note (.asked q a) s)
  | await q next, s => (await q next, note (.waits q) s)

/-! ## Rules -/

/-- Where a routine may wait, by what it began with and what it has, and what others do meanwhile. -/
structure Contract (σ κ : Type) (answer : κ → Type) where
  waits : κ → Shared σ κ answer → Shared σ κ answer → Prop
  rely : Shared σ κ answer → Shared σ κ answer → Prop

/-- Whatever the answers, a routine that began at `st` and is at `s` keeps the contract, and ends as
`post` and `error` say, by where its last part began. -/
def Safe (c : Contract σ κ answer) (post : α → Shared σ κ answer → Shared σ κ answer → Prop)
    (error : ε → Shared σ κ answer → Shared σ κ answer → Prop) :
    Routine σ κ answer ε α → Shared σ κ answer → Shared σ κ answer → Prop
  | done a, st, s => post a st s
  | fail e, st, s => error e st s
  | get next, st, s => (next s.state).Safe c post error st s
  | set change next, st, s => next.Safe c post error st { s with state := change s.state }
  | ask q next, st, s => ∀ a, (next a).Safe c post error st (note (.asked q a) s)
  | await q next, st, s => c.waits q st s ∧ ∀ s' a, c.rely (note (.waits q) s) s' →
      (next a).Safe c post error (note (.resumed q a) s') (note (.resumed q a) s')

variable {c : Contract σ κ answer} {post : α → Shared σ κ answer → Shared σ κ answer → Prop}
  {error : ε → Shared σ κ answer → Shared σ κ answer → Prop} {st s : Shared σ κ answer}

theorem safe_bind (mid : β → Shared σ κ answer → Shared σ κ answer → Prop)
    {p : Routine σ κ answer ε β} {f : β → Routine σ κ answer ε α} (first : p.Safe c mid error st s)
    (rest : ∀ b st s, mid b st s → (f b).Safe c post error st s) :
    (p >>= f).Safe c post error st s := by
  induction p generalizing st s with
  | done b => exact rest b st s first
  | fail e => exact first
  | get next ih => exact ih _ first
  | set change next ih => exact ih first
  | ask q next ih => exact fun a => ih a (first a)
  | await q next ih => exact ⟨first.1, fun s' a relied => ih a (first.2 s' a relied)⟩

theorem safe_recover (raised : ε' → Shared σ κ answer → Shared σ κ answer → Prop)
    {p : Routine σ κ answer ε' α} {handle : ε' → Routine σ κ answer ε α}
    (body : p.Safe c post raised st s)
    (caught : ∀ e st s, raised e st s → (handle e).Safe c post error st s) :
    (p.recover handle).Safe c post error st s := by
  induction p generalizing st s with
  | done a => exact body
  | fail e => exact caught e st s body
  | get next ih => exact ih _ body
  | set change next ih => exact ih body
  | ask q next ih => exact fun a => ih a (body a)
  | await q next ih => exact ⟨body.1, fun s' a relied => ih a (body.2 s' a relied)⟩

theorem safe_mono {weaker : α → Shared σ κ answer → Shared σ κ answer → Prop}
    {wrong : ε → Shared σ κ answer → Shared σ κ answer → Prop}
    {p : Routine σ κ answer ε α} (body : p.Safe c post error st s)
    (weaken : ∀ a st s, post a st s → weaker a st s)
    (worse : ∀ e st s, error e st s → wrong e st s) : p.Safe c weaker wrong st s := by
  induction p generalizing st s with
  | done a => exact weaken a st s body
  | fail e => exact worse e st s body
  | get next ih => exact ih _ body
  | set change next ih => exact ih body
  | ask q next ih => exact fun a => ih a (body a)
  | await q next ih => exact ⟨body.1, fun s' a relied => ih a (body.2 s' a relied)⟩

/-- What is known of a routine at rest. -/
def Rests (c : Contract σ κ answer) (post : α → Shared σ κ answer → Shared σ κ answer → Prop)
    (error : ε → Shared σ κ answer → Shared σ κ answer → Prop) (st : Shared σ κ answer) :
    Routine σ κ answer ε α × Shared σ κ answer → Prop
  | (done a, s) => post a st s
  | (fail e, s) => error e st s
  | (await q next, s) => ∃ last, s = note (.waits q) last ∧ c.waits q st last ∧
      ∀ s' a, c.rely s s' →
        (next a).Safe c post error (note (.resumed q a) s') (note (.resumed q a) s')
  | _ => False

theorem rests_advance {p : Routine σ κ answer ε α} (safe : p.Safe c post error st s)
    (oracle : ℕ → (q : κ) → answer q) : Rests c post error st (p.advance oracle s) := by
  induction p generalizing s with
  | done a => exact safe
  | fail e => exact safe
  | get next ih => exact ih _ safe
  | set change next ih => exact ih safe
  | ask q next ih => exact ih _ (safe _)
  | await q next ih => exact ⟨s, rfl, safe⟩

/-- The notes of an advance are answers and waits. -/
theorem notes_advance (p : Routine σ κ answer ε α) (oracle : ℕ → (q : κ) → answer q)
    (s : Shared σ κ answer) : ∃ more, (p.advance oracle s).2.notes = s.notes ++ more ∧
      ∀ success, .ended success ∉ more := by
  induction p generalizing s with
  | done a => exact ⟨[], (List.append_nil _).symm, fun _ => List.not_mem_nil⟩
  | fail e => exact ⟨[], (List.append_nil _).symm, fun _ => List.not_mem_nil⟩
  | get next ih => exact ih _ s
  | set change next ih => exact ih _
  | ask q next ih =>
    obtain ⟨more, is, none_⟩ := ih (oracle s.notes.length q)
      (note (.asked q (oracle s.notes.length q)) s)
    refine ⟨.asked q (oracle s.notes.length q) :: more, ?_, ?_⟩
    · rw [advance, is, note, List.append_assoc, List.singleton_append]
    · intro success there
      cases there with
      | tail _ there => exact none_ success there
  | await q next => exact ⟨[.waits q], rfl, fun success there => nomatch List.mem_singleton.mp there⟩

/-! ## Routines that change nothing -/

/-- It changes nothing, and waits for some answers only. -/
def Quiet (may : κ → Prop) : Routine σ κ answer ε α → Prop
  | done _ => True
  | fail _ => True
  | get next => ∀ s, (next s).Quiet may
  | set _ _ => False
  | ask _ next => ∀ a, (next a).Quiet may
  | await q next => may q ∧ ∀ a, (next a).Quiet may

theorem quiet_bind {may : κ → Prop} {p : Routine σ κ answer ε β} {f : β → Routine σ κ answer ε α}
    (first : p.Quiet may) (rest : ∀ b, (f b).Quiet may) : (p >>= f).Quiet may := by
  induction p with
  | done b => exact rest b
  | fail e => trivial
  | get next ih => exact fun s => ih s (first s)
  | set change next => exact first.elim
  | ask q next ih => exact fun a => ih a (first a)
  | await q next ih => exact ⟨first.1, fun a => ih a (first.2 a)⟩

theorem quiet_forM {may : κ → Prop} {body : β → Routine σ κ answer ε PUnit} {items : List β}
    (round : ∀ b ∈ items, (body b).Quiet may) : (items.forM body).Quiet may := by
  induction items with
  | nil => trivial
  | cons b items ih =>
    change (body b >>= fun _ => items.forM body).Quiet may
    exact quiet_bind (round b List.mem_cons_self) fun _ =>
      ih fun b there => round b (List.mem_cons_of_mem _ there)

/-- What readings keep, and what others keep while it waits, is kept. -/
theorem Quiet.safe {may : κ → Prop} {p : Routine σ κ answer ε α} (quiet : p.Quiet may)
    {keeps : Shared σ κ answer → Shared σ κ answer → Prop}
    (reads : ∀ st s q a, keeps st s → keeps st (note (.asked q a) s))
    (waits : ∀ st s q, may q → keeps st s → c.waits q st s)
    (relies : ∀ st s q a s', may q → keeps st s → c.rely (note (.waits q) s) s' →
      keeps (note (.resumed q a) s') (note (.resumed q a) s')) (here : keeps st s) :
    p.Safe c (fun _ => keeps) (fun _ => keeps) st s := by
  induction p generalizing st s with
  | done a => exact here
  | fail e => exact here
  | get next ih => exact ih _ (quiet _) here
  | set change next => exact quiet.elim
  | ask q next ih => exact fun a => ih a (quiet a) (reads st s q a here)
  | await q next ih =>
    exact ⟨waits st s q quiet.1 here, fun s' a relied =>
      ih a (quiet.2 a) (relies st s q a s' quiet.1 here relied)⟩

end Routine

/-! ## The calls of a program -/

/-- What the routines share, and the routines, also those that have ended. -/
structure Thread (σ κ : Type) (answer : κ → Type) (ε α : Type) where
  shared : Shared σ κ answer
  tasks : List (Routine σ κ answer ε α) := []

namespace Thread

variable {σ κ ι : Type} {answer : κ → Type} {ε α : Type}

inductive Event (ι : Type) where
  | call (input : ι)
  | resume (task : ℕ)

/-- A routine that has ended says so. -/
def rest (result : Routine σ κ answer ε α × Shared σ κ answer) : Shared σ κ answer :=
  match result.1 with
  | .done _ => Routine.note (.ended true) result.2
  | .fail _ => Routine.note (.ended false) result.2
  | _ => result.2

def step (code : ι → Routine σ κ answer ε α) (oracle : ℕ → (q : κ) → answer q)
    (t : Thread σ κ answer ε α) : Event ι → Thread σ κ answer ε α
  | .call input =>
    let result := (code input).advance oracle t.shared
    { shared := rest result, tasks := t.tasks ++ [result.1] }
  | .resume task =>
    match t.tasks[task]? with
    | some (.await q next) =>
      let a := oracle t.shared.notes.length q
      let result := (next a).advance oracle (Routine.note (.resumed q a) t.shared)
      { shared := rest result, tasks := t.tasks.set task result.1 }
    | _ => t

def run (code : ι → Routine σ κ answer ε α) (oracle : ℕ → (q : κ) → answer q)
    (t : Thread σ κ answer ε α) (events : List (Event ι)) : Thread σ κ answer ε α :=
  events.foldl (step code oracle) t

end Thread

end Artoo.Lib
