import Artoo.Lib.Table
import Artoo.Lib.Transaction

/-! Transactions under concurrent commits, as with READ COMMITTED: every statement sees what was
committed before it, with the writes of its own transaction on top. A rely says what others may
commit meanwhile; it shrinks with the locks held. -/
namespace Artoo.Lib

/-- What others may do to the database while the locks are held. -/
structure Rely (σ κ : Type) where
  rel : List κ → σ → σ → Prop
  refl : ∀ locks db, rel locks db db
  trans : ∀ locks a b c, rel locks a b → rel locks b c → rel locks a c
  weaken : ∀ locks more a b, locks ⊆ more → rel more a b → rel locks a b

/-- How far a transaction is: the committed database, its locks and its own writes. -/
structure Progress (σ ω κ : Type) where
  db : σ
  locks : List κ
  log : List ω

namespace Progress

variable {σ ω κ : Type}

/-- Others have committed. -/
def at_ (s : Progress σ ω κ) (db : σ) : Progress σ ω κ := { s with db }

@[simp] theorem at_db {s : Progress σ ω κ} {db : σ} : (s.at_ db).db = db := rfl

@[simp] theorem at_locks {s : Progress σ ω κ} {db : σ} : (s.at_ db).locks = s.locks := rfl

@[simp] theorem at_log {s : Progress σ ω κ} {db : σ} : (s.at_ db).log = s.log := rfl

@[simp] theorem at_self {s : Progress σ ω κ} : s.at_ s.db = s := rfl

@[simp] theorem at_at {s : Progress σ ω κ} {a b : σ} : (s.at_ a).at_ b = s.at_ b := rfl

/-- A transaction keeps its locks and its writes, and what it saw relates to what it sees. -/
structure Since (R : Rely σ κ) (s s' : Progress σ ω κ) : Prop where
  db : R.rel s.locks s.db s'.db
  locks : s.locks ⊆ s'.locks
  log : s.log <+: s'.log

theorem Since.trans {R : Rely σ κ} {a b c : Progress σ ω κ} (first : Since R a b)
    (last : Since R b c) : Since R a c :=
  ⟨R.trans _ _ _ _ first.db (R.weaken _ _ _ _ first.locks last.db),
    List.Subset.trans first.locks last.locks, first.log.trans last.log⟩

variable [Tables σ ω κ]

/-- What the next statement sees. -/
def view (s : Progress σ ω κ) : σ := Tx.writeAll s.log s.db

/-- The locks a statement takes: on the rows it asks for and on those it writes. -/
def wants (s : Progress σ ω κ) (locks : σ → List κ) (writes : σ → List ω) : List κ :=
  locks s.view ++ (writes s.view).flatMap (Tables.guards σ)

def after (s : Progress σ ω κ) (locks : σ → List κ) (writes : σ → List ω) : Progress σ ω κ :=
  ⟨s.db, s.locks ++ s.wants locks writes, s.log ++ writes s.view⟩

@[simp] theorem after_db {s : Progress σ ω κ} {locks : σ → List κ} {writes : σ → List ω} :
    (s.after locks writes).db = s.db := rfl

@[simp] theorem after_log {s : Progress σ ω κ} {locks : σ → List κ} {writes : σ → List ω} :
    (s.after locks writes).log = s.log ++ writes s.view := rfl

theorem locks_after {s : Progress σ ω κ} {locks : σ → List κ} {writes : σ → List ω} :
    s.locks ⊆ (s.after locks writes).locks := List.subset_append_left _ _

@[simp] theorem after_view {s : Progress σ ω κ} {locks : σ → List κ} {writes : σ → List ω} :
    (s.after locks writes).view = Tx.writeAll (writes s.view) s.view := Tx.writeAll_append _ _ _

/-- A statement by what it writes here. -/
theorem after_writes {s : Progress σ ω κ} {locks : σ → List κ} {writes : σ → List ω} {rows : List ω}
    (is : writes s.view = rows) : s.after locks writes = s.after locks fun _ => rows := by
  unfold after wants
  rw [is]

theorem after_single {s : Progress σ ω κ} {w : ω} : s.after (fun _ => []) (fun _ => [w]) =
    ⟨s.db, s.locks ++ Tables.guards σ w, s.log ++ [w]⟩ := by
  simp [after, wants]

/-- A statement that neither locks nor writes. -/
@[simp] theorem after_read {s : Progress σ ω κ} : s.after (fun _ => []) (fun _ => []) = s := by
  simp [after, wants]

end Progress

namespace Tx

variable {σ ω κ ι ε α β : Type}

variable [Tables σ ω κ]

/-- Whatever is drawn and committed by others, a transaction that gets to its end ends in `post`. -/
def under (R : Rely σ κ) : Tx σ ω κ ι ε α → (α → Progress σ ω κ → Prop) → Progress σ ω κ → Prop
  | done a, post, s => ∀ db, R.rel s.locks s.db db → post a (s.at_ db)
  | fail _, _, _ => True
  | draw next, post, s => ∀ i, under R (next i) post s
  | stmt locks writes next, post, s => ∀ db, R.rel s.locks s.db db →
      under R (next (s.at_ db).view) post ((s.at_ db).after locks writes)

variable {R : Rely σ κ} {s : Progress σ ω κ} {p : Tx σ ω κ ι ε α}
  {post : α → Progress σ ω κ → Prop}

/-- What holds of the rest of a transaction holds after others have committed. -/
theorem under_later (h : under R p post s) {db : σ} (later : R.rel s.locks s.db db) :
    under R p post (s.at_ db) := by
  induction p generalizing s with
  | done a => exact fun db' step => h db' (R.trans _ _ _ _ later step)
  | fail e => trivial
  | draw next ih => exact fun i => ih i (h i) later
  | stmt locks writes next ih => exact fun db' step => h db' (R.trans _ _ _ _ later step)

theorem under_mono {weaker : α → Progress σ ω κ → Prop} (h : under R p post s)
    (weaken : ∀ a s', post a s' → weaker a s') : under R p weaker s := by
  induction p generalizing s with
  | done a => exact fun db step => weaken _ _ (h db step)
  | fail e => trivial
  | draw next ih => exact fun i => ih i (h i)
  | stmt locks writes next ih => exact fun db step => ih _ (h db step)

theorem under_bind {f : α → Tx σ ω κ ι ε β} {post : β → Progress σ ω κ → Prop} :
    under R (p >>= f) post s ↔ under R p (fun a s' => under R (f a) post s') s := by
  induction p generalizing s with
  | done a =>
    constructor
    · exact fun h db step => under_later h step
    · exact fun h => h s.db (R.refl _ _)
  | fail e => exact Iff.rfl
  | draw next ih => exact forall_congr' fun i => ih i
  | stmt locks writes next ih => exact forall_congr' fun db => forall_congr' fun _ => ih _

theorem under_map {f : α → β} {post : β → Progress σ ω κ → Prop} :
    under R (p >>= fun a => pure (f a)) post s ↔ under R p (fun a s' => post (f a) s') s := by
  induction p generalizing s with
  | done a => exact Iff.rfl
  | fail e => exact Iff.rfl
  | draw next ih => exact forall_congr' fun i => ih i
  | stmt locks writes next ih => exact forall_congr' fun db => forall_congr' fun _ => ih _

theorem under_seq {mid : α → Progress σ ω κ → Prop} {f : α → Tx σ ω κ ι ε β}
    {post : β → Progress σ ω κ → Prop} (first : under R p mid s)
    (rest : ∀ a s', mid a s' → under R (f a) post s') : under R (p >>= f) post s :=
  under_bind.mpr (under_mono first rest)

theorem under_and {other : α → Progress σ ω κ → Prop} (left : under R p post s)
    (right : under R p other s) : under R p (fun a s' => post a s' ∧ other a s') s := by
  induction p generalizing s with
  | done a => exact fun db step => ⟨left db step, right db step⟩
  | fail e => trivial
  | draw next ih => exact fun i => ih i (left i) (right i)
  | stmt locks writes next ih => exact fun db step => ih _ (left db step) (right db step)

theorem under_since : under R p (fun _ s' => Progress.Since R s s') s := by
  have key : ∀ (q : Tx σ ω κ ι ε α) t, Progress.Since R s t →
      under R q (fun _ s' => Progress.Since R s s') t := by
    intro q
    induction q with
    | done a =>
      intro t since db step
      exact since.trans ⟨step, List.Subset.refl _, List.prefix_refl _⟩
    | fail e => exact fun _ _ => trivial
    | draw next ih => exact fun t since i => ih i t since
    | stmt locks writes next ih =>
      intro t since db step
      exact ih _ _ (since.trans ⟨step, List.subset_append_left _ _, List.prefix_append _ _⟩)
  exact key p s ⟨R.refl _ _, List.Subset.refl _, List.prefix_refl _⟩

/-- What a transaction proves of its end, with what relates it to its start. -/
theorem under_seq_since {mid : α → Progress σ ω κ → Prop} {f : α → Tx σ ω κ ι ε β}
    {post : β → Progress σ ω κ → Prop} (first : under R p mid s)
    (rest : ∀ a s', mid a s' → Progress.Since R s s' → under R (f a) post s') :
    under R (p >>= f) post s :=
  under_seq (under_and first under_since) fun a s' both => rest a s' both.1 both.2

/-- The loop rule with an invariant of the rounds that are left. -/
theorem under_rounds {I : List β → Progress σ ω κ → Prop} {body : β → Tx σ ω κ ι ε PUnit}
    {items : List β}
    (stable : ∀ s db, I [] s → R.rel s.locks s.db db → I [] (s.at_ db))
    (round : ∀ b rest s, I (b :: rest) s → under R (body b) (fun _ s' => I rest s') s)
    (initial : I items s) : under R (items.forM body) (fun _ s' => I [] s') s := by
  induction items generalizing s with
  | nil => exact fun db step => stable s db initial step
  | cons b items ih =>
    change under R (body b >>= fun _ => items.forM body) _ _
    apply under_seq (round b items s initial)
    intro _ s' kept
    exact ih kept

/-- What every write of the kind and every commit of others keeps, the program keeps. -/
theorem Writes.under {P : σ → ω → Prop} {I : Progress σ ω κ → Prop} (h : Writes P p)
    (stable : ∀ s db, I s → R.rel s.locks s.db db → I (s.at_ db))
    (step : ∀ s locks writes, I s → (∀ w ∈ writes s.view, P s.view w) → I (s.after locks writes))
    (initial : I s) : under R p (fun _ s' => I s') s := by
  induction p generalizing s with
  | done a => exact fun db later => stable s db initial later
  | fail e => trivial
  | draw next ih => exact fun i => ih i (h i) initial
  | stmt locks writes next ih =>
    intro db later
    have here := stable s db initial later
    exact ih _ (h _).2 (step _ locks writes here (h _).1)

/-! ## A table under the writes of a log -/

section Overlay

variable {ρ μ : Type} {key : ρ → μ} [DecidableEq μ]

/-- The last row of a key that a log writes. -/
def logged (key : ρ → μ) (of : ω → Option ρ) : List ω → μ → Option ρ
  | [], _ => none
  | w :: log, k => (logged key of log k).or ((of w).filter fun row => decide (key row = k))

variable {of : ω → Option ρ} {k : μ}

theorem logged_append {log more : List ω} :
    logged key of (log ++ more) k = (logged key of more k).or (logged key of log k) := by
  induction log with
  | nil => simp [logged]
  | cons w log ih => simp [logged, ih, Option.or_assoc]

theorem logged_eq_some {log : List ω} {row : ρ} (found : logged key of log k = some row) :
    key row = k ∧ ∃ w ∈ log, of w = some row := by
  induction log with
  | nil => cases found
  | cons w log ih =>
    rw [logged, Option.or_eq_some_iff] at found
    rcases found with later | ⟨_, here⟩
    · obtain ⟨same, w', member, is⟩ := ih later
      exact ⟨same, w', List.mem_cons_of_mem _ member, is⟩
    · obtain ⟨is, same⟩ := Option.filter_eq_some_iff.mp here
      exact ⟨by simpa using same, w, List.mem_cons_self, is⟩

/-- After a log, a row is what the log wrote last, or what was there. -/
theorem get?_writeAll (table : σ → Table key)
    (writes : ∀ (w : ω) (db : σ), table (Tables.write w db) =
      match of w with | some row => (table db).put row | none => table db)
    {log : List ω} {db : σ} :
    (table (writeAll log db)).get? k = (logged key of log k).or ((table db).get? k) := by
  induction log generalizing db with
  | nil => simp [logged]
  | cons w log ih =>
    rw [writeAll_cons, ih, logged, writes]
    cases of w with
    | none => simp
    | some row =>
      dsimp only
      rw [Table.get?_put]
      by_cases hit : key row = k
      · simp [hit, Option.filter]
      · simp [hit, Option.filter]

theorem table_writeAll (table : σ → Table key)
    (writes : ∀ (w : ω) (db : σ), table (Tables.write w db) =
      match of w with | some row => (table db).put row | none => table db)
    {log : List ω} {db : σ} :
    table (writeAll log db) = (log.filterMap of).foldl Table.put (table db) := by
  induction log generalizing db with
  | nil => rfl
  | cons w log ih =>
    rw [writeAll_cons, ih, writes]
    cases is : of w with
    | none => rw [List.filterMap_cons_none is]
    | some row => rw [List.filterMap_cons_some is, List.foldl_cons]

end Overlay

end Tx

end Artoo.Lib
