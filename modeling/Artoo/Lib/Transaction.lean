import Mathlib.Logic.Basic
import Mathlib.Order.Defs.Unbundled
import Mathlib.Data.List.Basic

/-! Database transactions as programs: statements that read a view and write to it, values that
the database does not decide, and rollback. A program is read in two ways: executed alone, and
with a view of its own at every statement, as under concurrent commits. -/
namespace Artoo.Lib

/-- `σ` the database, `ω` its row writes, `κ` its row locks, `ι` the drawn values, `ε` the errors. -/
inductive Tx (σ ω κ ι ε α : Type) : Type where
  | done (a : α)
  | fail (e : ε)
  | draw (next : ι → Tx σ ω κ ι ε α)
  | stmt (locks : σ → List κ) (writes : σ → List ω) (next : σ → Tx σ ω κ ι ε α)

/-- What a row write does, and the row locks it takes. -/
class Tables (σ : Type) (ω κ : outParam Type) where
  write : ω → σ → σ
  guards : ω → List κ

namespace Tx

variable {σ ω κ ι ε α β : Type}

def bind (p : Tx σ ω κ ι ε α) (f : α → Tx σ ω κ ι ε β) : Tx σ ω κ ι ε β :=
  match p with
  | done a => f a
  | fail e => fail e
  | draw next => draw fun i => (next i).bind f
  | stmt locks writes next => stmt locks writes fun view => (next view).bind f

instance : Monad (Tx σ ω κ ι ε) where
  pure := done
  bind := bind

@[simp] theorem pure_eq (a : α) : (pure a : Tx σ ω κ ι ε α) = done a := rfl

@[simp] theorem done_bind (a : α) (f : α → Tx σ ω κ ι ε β) : (done a >>= f) = f a := rfl

@[simp] theorem fail_bind (e : ε) (f : α → Tx σ ω κ ι ε β) : (fail e >>= f) = fail e := rfl

@[simp] theorem draw_bind (next : ι → Tx σ ω κ ι ε α) (f : α → Tx σ ω κ ι ε β) :
    (draw next >>= f) = draw fun i => next i >>= f := rfl

@[simp] theorem stmt_bind (locks : σ → List κ) (writes : σ → List ω) (next : σ → Tx σ ω κ ι ε α)
    (f : α → Tx σ ω κ ι ε β) :
    (stmt locks writes next >>= f) = stmt locks writes fun view => next view >>= f := rfl

theorem bind_done (p : Tx σ ω κ ι ε α) : p.bind done = p := by
  induction p with
  | done a => rfl
  | fail e => rfl
  | draw next ih => exact congrArg draw (funext ih)
  | stmt locks writes next ih => exact congrArg (stmt locks writes) (funext ih)

theorem bind_bind {γ : Type} (p : Tx σ ω κ ι ε α) (f : α → Tx σ ω κ ι ε β)
    (g : β → Tx σ ω κ ι ε γ) : (p.bind f).bind g = p.bind fun a => (f a).bind g := by
  induction p with
  | done a => rfl
  | fail e => rfl
  | draw next ih => exact congrArg draw (funext ih)
  | stmt locks writes next ih => exact congrArg (stmt locks writes) (funext ih)

instance : LawfulMonad (Tx σ ω κ ι ε) :=
  LawfulMonad.mk' _ bind_done (fun _ _ => rfl) bind_bind

section Writes

variable {P : σ → ω → Prop} {p : Tx σ ω κ ι ε α}

/-- On any view, the program writes rows of a kind only. -/
def Writes (P : σ → ω → Prop) : Tx σ ω κ ι ε α → Prop
  | done _ => True
  | fail _ => True
  | draw next => ∀ i, Writes P (next i)
  | stmt _ writes next => ∀ view, (∀ w ∈ writes view, P view w) ∧ Writes P (next view)

theorem writes_done {a : α} : Writes P (done a : Tx σ ω κ ι ε α) := trivial

theorem writes_fail {e : ε} : Writes P (fail e : Tx σ ω κ ι ε α) := trivial

theorem writes_bind {f : α → Tx σ ω κ ι ε β} (first : Writes P p) (rest : ∀ a, Writes P (f a)) :
    Writes P (p >>= f) := by
  induction p with
  | done a => exact rest a
  | fail e => trivial
  | draw next ih => exact fun i => ih i (first i)
  | stmt locks writes next ih => exact fun view => ⟨(first view).1, ih view (first view).2⟩

theorem Writes.mono {Q : σ → ω → Prop} (h : Writes P p) (weaken : ∀ view w, P view w → Q view w) :
    Writes Q p := by
  induction p with
  | done a => trivial
  | fail e => trivial
  | draw next ih => exact fun i => ih i (h i)
  | stmt locks writes next ih =>
    exact fun view => ⟨fun w written => weaken view w ((h view).1 w written), ih view (h view).2⟩

/-- A program that writes nothing. -/
abbrev Reads (p : Tx σ ω κ ι ε α) : Prop := Writes (fun _ _ => False) p

theorem Reads.writes (h : Reads p) : Writes P p := Writes.mono h fun _ _ none => none.elim

theorem writes_forM {body : β → Tx σ ω κ ι ε PUnit} {items : List β}
    (round : ∀ b ∈ items, Writes P (body b)) : Writes P (items.forM body) := by
  induction items with
  | nil => trivial
  | cons b items ih =>
    change Writes P (body b >>= fun _ => items.forM body)
    apply writes_bind (round b List.mem_cons_self)
    exact fun _ => ih fun c member => round c (List.mem_cons_of_mem _ member)

end Writes

variable [Tables σ ω κ]

def writeAll (log : List ω) (db : σ) : σ := log.foldl (fun db w => Tables.write w db) db

@[simp] theorem writeAll_nil (db : σ) : writeAll ([] : List ω) db = db := rfl

@[simp] theorem writeAll_cons (w : ω) (log : List ω) (db : σ) :
    writeAll (w :: log) db = writeAll log (Tables.write w db) := rfl

theorem writeAll_append (log more : List ω) (db : σ) :
    writeAll (log ++ more) db = writeAll more (writeAll log db) := List.foldl_append

/-- The result, the database and the number of values drawn. -/
abbrev Run (σ ε α : Type) := Except ε (α × σ × Nat)

/-- Execution of a transaction that runs alone; `input n` is the `n`th drawn value. -/
def run (input : Nat → ι) : Tx σ ω κ ι ε α → Nat → σ → Run σ ε α
  | done a, n, db => .ok (a, db, n)
  | fail e, _, _ => .error e
  | draw next, n, db => run input (next (input n)) (n + 1) db
  | stmt _ writes next, n, db => run input (next db) n (writeAll (writes db) db)

theorem run_bind (input : Nat → ι) (p : Tx σ ω κ ι ε α) (f : α → Tx σ ω κ ι ε β) (n : Nat) (db : σ) :
    run input (p >>= f) n db =
      (run input p n db).bind fun (a, db', m) => run input (f a) m db' := by
  induction p generalizing n db with
  | done a => rfl
  | fail e => rfl
  | draw next ih => exact ih _ _ _
  | stmt locks writes next ih => exact ih _ _ _

theorem run_seq {input : Nat → ι} {p : Tx σ ω κ ι ε α} {f : α → Tx σ ω κ ι ε β} {n m : Nat}
    {db db' : σ} {a : α} (first : run input p n db = .ok (a, db', m)) :
    run input (p >>= f) n db = run input (f a) m db' := by
  rw [run_bind, first]
  rfl

/-- An error rolls back. -/
def execute (input : Nat → ι) (p : Tx σ ω κ ι ε α) (db : σ) : Except ε α × σ :=
  match run input p 0 db with
  | .ok (a, db', _) => (.ok a, db')
  | .error e => (.error e, db)

/-- Whatever is drawn, a transaction that commits ends in `post`. -/
def wp : Tx σ ω κ ι ε α → (α → σ → Prop) → σ → Prop
  | done a, post, db => post a db
  | fail _, _, _ => True
  | draw next, post, db => ∀ i, wp (next i) post db
  | stmt _ writes next, post, db => wp (next db) post (writeAll (writes db) db)

variable {post : α → σ → Prop} {db : σ} {p : Tx σ ω κ ι ε α}

@[simp] theorem wp_done {a : α} : wp (done a : Tx σ ω κ ι ε α) post db ↔ post a db := Iff.rfl

@[simp] theorem wp_fail {e : ε} : wp (fail e : Tx σ ω κ ι ε α) post db ↔ True := Iff.rfl

@[simp] theorem wp_draw {next : ι → Tx σ ω κ ι ε α} :
    wp (draw next) post db ↔ ∀ i, wp (next i) post db := Iff.rfl

@[simp] theorem wp_stmt {locks : σ → List κ} {writes : σ → List ω} {next : σ → Tx σ ω κ ι ε α} :
    wp (stmt locks writes next) post db ↔ wp (next db) post (writeAll (writes db) db) := Iff.rfl

theorem wp_bind {f : α → Tx σ ω κ ι ε β} {post : β → σ → Prop} :
    wp (p >>= f) post db ↔ wp p (fun a db' => wp (f a) post db') db := by
  induction p generalizing db with
  | done a => exact Iff.rfl
  | fail e => exact Iff.rfl
  | draw next ih => exact forall_congr' fun i => ih i
  | stmt locks writes next ih => exact ih _

theorem wp_mono {weaker : α → σ → Prop} (h : wp p post db)
    (weaken : ∀ a db', post a db' → weaker a db') : wp p weaker db := by
  induction p generalizing db with
  | done a => exact weaken a db h
  | fail e => trivial
  | draw next ih => exact fun i => ih i (h i)
  | stmt locks writes next ih => exact ih _ h

/-- Sequencing by the postcondition of the first program. -/
theorem wp_seq {mid : α → σ → Prop} {f : α → Tx σ ω κ ι ε β} {post : β → σ → Prop}
    (first : wp p mid db) (rest : ∀ a db', mid a db' → wp (f a) post db') :
    wp (p >>= f) post db :=
  wp_bind.mpr (wp_mono first rest)

theorem wp_and {other : α → σ → Prop} (left : wp p post db) (right : wp p other db) :
    wp p (fun a db' => post a db' ∧ other a db') db := by
  induction p generalizing db with
  | done a => exact ⟨left, right⟩
  | fail e => trivial
  | draw next ih => exact fun i => ih i (left i) (right i)
  | stmt locks writes next ih => exact ih _ left right

theorem wp_trivial : wp p (fun _ _ => True) db := by
  induction p generalizing db with
  | done a => trivial
  | fail e => trivial
  | draw next ih => exact fun i => ih i
  | stmt locks writes next ih => exact ih _

/-- The loop rule: each round keeps the invariant. -/
theorem wp_forM {I : σ → Prop} {body : β → Tx σ ω κ ι ε PUnit} {items : List β}
    (round : ∀ b ∈ items, ∀ db, I db → wp (body b) (fun _ db' => I db') db) (initial : I db) :
    wp (items.forM body) (fun _ db' => I db') db := by
  induction items generalizing db with
  | nil => exact initial
  | cons b items ih =>
    change wp (body b >>= fun _ => items.forM body) _ _
    apply wp_seq (round b List.mem_cons_self db initial)
    intro _ db' kept
    exact ih (fun c member => round c (List.mem_cons_of_mem _ member)) kept

theorem wp_run {input : Nat → ι} {n m : Nat} {a : α} {db' : σ} (h : wp p post db)
    (result : run input p n db = .ok (a, db', m)) : post a db' := by
  induction p generalizing n db with
  | done b =>
    cases result
    exact h
  | fail e => cases result
  | draw next ih => exact ih _ (h _) result
  | stmt locks writes next ih => exact ih _ h result

/-- A transaction ends in its postcondition or leaves the database as it was. -/
theorem wp_execute {input : Nat → ι} (h : wp p post db) :
    (∃ a, (p.execute input db).1 = .ok a ∧ post a (p.execute input db).2) ∨
      ((∃ e, (p.execute input db).1 = .error e) ∧ (p.execute input db).2 = db) := by
  unfold execute
  cases result : run input p 0 db with
  | ok final =>
    obtain ⟨a, db', m⟩ := final
    exact Or.inl ⟨a, rfl, wp_run h result⟩
  | error e => exact Or.inr ⟨⟨e, rfl⟩, rfl⟩

theorem wp_committed {input : Nat → ι} {a : α} (h : wp p post db)
    (committed : (p.execute input db).1 = .ok a) : post a (p.execute input db).2 := by
  rcases @wp_execute _ _ _ _ _ _ _ _ _ _ input h with ⟨b, is, holds⟩ | ⟨⟨e, failed⟩, _⟩
  · rw [committed] at is
    cases is
    exact holds
  · rw [committed] at failed
    cases failed

/-- A relation of the database before a transaction to the database after it. -/
def Keeps (R : σ → σ → Prop) (p : Tx σ ω κ ι ε α) : Prop := ∀ db, wp p (fun _ db' => R db db') db

section Keeps

variable {R : σ → σ → Prop}

theorem keeps_mono {S : σ → σ → Prop} (h : Keeps R p) (weaken : ∀ db db', R db db' → S db db') :
    Keeps S p :=
  fun db => wp_mono (h db) fun _ => weaken db

theorem keeps_fail {e : ε} : Keeps R (fail e : Tx σ ω κ ι ε α) := fun _ => trivial

theorem Reads.keeps [Std.Refl R] (h : Reads p) : Keeps R p := by
  intro db
  induction p with
  | done a => exact Std.Refl.refl db
  | fail e => trivial
  | draw next ih => exact fun i => ih i (h i)
  | stmt locks writes next ih =>
    have none_ : writes db = [] := List.eq_nil_iff_forall_not_mem.mpr fun w => (h db).1 w
    rw [wp_stmt, none_]
    exact ih db (h db).2

/-- What the writes of one statement keep, the program keeps. -/
theorem Writes.keeps [Std.Refl R] [IsTrans σ R] {P : σ → ω → Prop} (h : Writes P p)
    (kept : ∀ view log, (∀ w ∈ log, P view w) → R view (writeAll log view)) : Keeps R p := by
  intro db
  induction p generalizing db with
  | done a => exact Std.Refl.refl db
  | fail e => trivial
  | draw next ih => exact fun i => ih i (h i) db
  | stmt locks writes next ih =>
    rw [wp_stmt]
    apply wp_mono (ih db (h db).2 _)
    exact fun _ db' later => IsTrans.trans db _ db' (kept db _ (h db).1) later

/-- A part of the database is the same. -/
def Same {τ : Type} (part : σ → τ) (db db' : σ) : Prop := part db' = part db

instance {τ : Type} {part : σ → τ} : Std.Refl (Same part) := ⟨fun _ => rfl⟩

instance {τ : Type} {part : σ → τ} : IsTrans σ (Same part) :=
  ⟨fun _ _ _ first last => Eq.trans last first⟩

/-- A part that no write touches is the same after the program. -/
theorem Writes.same {τ : Type} {part : σ → τ}
    (h : Writes (fun _ w => ∀ db, part (Tables.write w db) = part db) p) : Keeps (Same part) p := by
  apply Writes.keeps h
  intro view log untouched
  unfold Same
  induction log generalizing view with
  | nil => rfl
  | cons w log ih =>
    rw [writeAll_cons, ih _ fun w' member => untouched w' (List.mem_cons_of_mem _ member)]
    exact untouched w List.mem_cons_self view

/-- What follows a program that writes nothing starts from the same database. -/
theorem Reads.wp_bind {f : α → Tx σ ω κ ι ε β} {post : β → σ → Prop} (h : Reads p)
    (rest : ∀ a, wp (f a) post db) : wp (p >>= f) post db := by
  induction p generalizing db with
  | done a => exact rest a
  | fail e => trivial
  | draw next ih => exact fun i => ih i (h i) rest
  | stmt locks writes next ih =>
    have none_ : writes db = [] := List.eq_nil_iff_forall_not_mem.mpr fun w => (h db).1 w
    rw [stmt_bind, wp_stmt, none_]
    exact ih db (h db).2 rest

theorem keeps_done [Std.Refl R] {a : α} : Keeps R (done a : Tx σ ω κ ι ε α) :=
  fun db => Std.Refl.refl db

theorem keeps_bind [IsTrans σ R] {f : α → Tx σ ω κ ι ε β} (first : Keeps R p)
    (rest : ∀ a, Keeps R (f a)) : Keeps R (p >>= f) := by
  intro db
  apply wp_seq (first db)
  intro a mid kept
  exact wp_mono (rest a mid) fun _ db' => IsTrans.trans db mid db' kept

theorem keeps_forM [Std.Refl R] [IsTrans σ R] {body : β → Tx σ ω κ ι ε PUnit} {items : List β}
    (round : ∀ b ∈ items, Keeps R (body b)) : Keeps R (items.forM body) := by
  induction items with
  | nil => exact keeps_done
  | cons b items ih =>
    change Keeps R (body b >>= fun _ => items.forM body)
    apply keeps_bind (round b List.mem_cons_self)
    exact fun _ => ih fun c member => round c (List.mem_cons_of_mem _ member)

/-- The database after a first program, for what the rest has to show. -/
theorem wp_keeps {f : α → Tx σ ω κ ι ε β} {post : β → σ → Prop} (first : Keeps R p)
    (rest : ∀ a db', R db db' → wp (f a) post db') : wp (p >>= f) post db :=
  wp_seq (first db) rest

theorem wp_within (R : σ → σ → Prop) {post : α → σ → Prop} (h : Keeps R p)
    (then_ : ∀ a db', R db db' → post a db') : wp p post db :=
  wp_mono (h db) then_

theorem keeps_execute [Std.Refl R] {input : Nat → ι} (h : Keeps R p) :
    R db (p.execute input db).2 := by
  rcases wp_execute (h db) with ⟨a, _, kept⟩ | ⟨_, same⟩
  · exact kept
  · rw [same]
    exact Std.Refl.refl db

end Keeps

end Tx

end Artoo.Lib
