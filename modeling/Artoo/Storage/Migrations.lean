import Artoo.Domain.Lease
import Artoo.Lib.Selection

/-! The migrations of the embedded database: the history that is stored in it, and the transaction that
brings it up to the list of the release. -/
namespace Artoo.Storage.Migrations
open Artoo.Domain Artoo.Lib

/-- A row of `artoo_meta.migrations`. -/
structure Migration where
  position : ℤ
  checksum : List Char
  deriving DecidableEq, Repr

/-- The history, none before its table is created, and all other tables. -/
structure Database (σ : Type) where
  journal : Option (List Migration)
  rest : σ
  deriving DecidableEq

inductive MigrationError where
  | refused (message : String)
  | sql (message : String)
  deriving DecidableEq, Repr

/-- The database as the connection sees it, and what a rollback restores: nothing once a statement
has ended the transaction. -/
structure Session (σ : Type) where
  now : Database σ
  restore : Option (Database σ)

/-- PGlite, and the hash of node. -/
structure Engine (σ : Type) where
  /-- runs one migration; with a message where it fails -/
  exec : List Char → Session σ → Session σ × Option String
  hasPublicTables : Database σ → Bool
  sha256 : List Char → List Char

section Migrate

variable {σ : Type} (engine : Engine σ)

/-- `replace(/\r\n/g, "\n")` -/
def unixLines : List Char → List Char
  | '\r' :: '\n' :: rest => '\n' :: unixLines rest
  | c :: rest => c :: unixLines rest
  | [] => []

def trimText (cs : List Char) : List Char :=
  ((cs.dropWhile isTrimmed).reverse.dropWhile isTrimmed).reverse

def checksum (statement : List Char) : List Char := engine.sha256 (trimText (unixLines statement))

/-- `SELECT … ORDER BY position` -/
def history (db : Database σ) : List Migration :=
  (db.journal.getD []).insertionSort fun a b => a.position ≤ b.position

def historyChanged (index : ℕ) : MigrationError :=
  .refused s!"Migration history changed at statement {index + 1}. Restore the original migrations and append a new migration; database downgrades are not supported."

def legacySchema : MigrationError :=
  .refused "Database has an untracked legacy schema. Back it up and migrate it with the legacy adoption tool before starting; no existing tables were changed."

/-- Each row has to be the one of the statement at its index. -/
def checkHistory (checksums : List (List Char)) (index : ℕ) :
    List Migration → Except MigrationError Unit
  | [] => .ok ()
  | migration :: rows =>
    if migration.position ≠ index ∨ checksums[index]? ≠ some migration.checksum then
      .error (historyChanged index)
    else checkHistory checksums (index + 1) rows

/-- `CREATE TABLE IF NOT EXISTS artoo_meta.migrations` -/
def ensureJournal (db : Database σ) : Database σ := { db with journal := some (db.journal.getD []) }

/-- The insert fails where the table is gone or the position is taken. -/
def insertMigration (row : Migration) (db : Database σ) : Option (Database σ) :=
  match db.journal with
  | none => none
  | some rows =>
    if rows.any fun r => r.position = row.position then none
    else some { db with journal := some (rows ++ [row]) }

def applyFrom (index : ℕ) :
    List (List Char) → Session σ → Session σ × Except MigrationError Unit
  | [], session => (session, .ok ())
  | statement :: statements, session =>
    match engine.exec statement session with
    | (session, some message) => (session, .error (.sql message))
    | (session, none) =>
      match insertMigration ⟨index, checksum engine statement⟩ session.now with
      | none => (session, .error (.sql "artoo_meta.migrations"))
      | some db => applyFrom (index + 1) statements { session with now := db }

/-- The callback of the transaction. -/
def upgrade (statements : List (List Char)) (session : Session σ) :
    Session σ × Except MigrationError Unit :=
  let session := { session with now := ensureJournal session.now }
  let applied := history session.now
  match checkHistory (statements.map (checksum engine)) 0 applied with
  | .error e => (session, .error e)
  | .ok () =>
    if applied.isEmpty && engine.hasPublicTables session.now then (session, .error legacySchema)
    else applyFrom engine applied.length (statements.drop applied.length) session

/-- What was done is kept, or rolled back after an error. -/
def transaction (db : Database σ)
    (body : Session σ → Session σ × Except MigrationError Unit) :
    Database σ × Except MigrationError Unit :=
  match body ⟨db, some db⟩ with
  | (session, .ok ()) => (session.now, .ok ())
  | (session, .error e) => (session.restore.getD session.now, .error e)

def migrate (statements : List (List Char)) (db : Database σ) :
    Database σ × Except MigrationError Unit :=
  transaction db (upgrade engine statements)

/-! ## What the history records -/

/-- The rows of a list of statements, from an index on. -/
def recorded (index : ℕ) : List (List Char) → List Migration
  | [] => []
  | statement :: statements =>
    ⟨index, checksum engine statement⟩ :: recorded (index + 1) statements

variable {engine} {index : ℕ} {statements done : List (List Char)} {db start final base : Database σ}
  {rows : List Migration}

theorem length_recorded : (recorded engine index statements).length = statements.length := by
  induction statements generalizing index with
  | nil => rfl
  | cons statement statements ih => rw [recorded, List.length_cons, ih, List.length_cons]

theorem position_recorded : ∀ r ∈ recorded engine index statements,
    (index : ℤ) ≤ r.position ∧ r.position < index + statements.length := by
  induction statements generalizing index with
  | nil => nofun
  | cons statement statements ih =>
    intro r there
    rw [List.length_cons]
    rcases List.mem_cons.mp there with rfl | later
    · dsimp only
      omega
    · have range := ih r later
      omega

theorem sorted_recorded :
    (recorded engine index statements).Pairwise fun a b => a.position < b.position := by
  induction statements generalizing index with
  | nil => exact List.Pairwise.nil
  | cons statement statements ih =>
    rw [recorded, List.pairwise_cons]
    refine ⟨fun r there => ?_, ih⟩
    have range := position_recorded r there
    dsimp only
    omega

theorem recorded_append : recorded engine index (done ++ statements) =
    recorded engine index done ++ recorded engine (index + done.length) statements := by
  induction done generalizing index with
  | nil => rfl
  | cons statement done ih =>
    rw [List.cons_append, recorded, ih, recorded, List.cons_append, List.length_cons,
      Nat.add_right_comm, Nat.add_assoc]

theorem recorded_take (n : ℕ) :
    recorded engine index (statements.take n) = (recorded engine index statements).take n := by
  induction statements generalizing index n with
  | nil => simp [recorded]
  | cons statement statements ih =>
    cases n with
    | zero => simp [recorded]
    | succ n => rw [List.take_succ_cons, recorded, ih, recorded, List.take_succ_cons]

theorem checkHistory_iff : checkHistory (statements.map (checksum engine)) index rows = .ok () ↔
    rows <+: recorded engine index (statements.drop index) := by
  induction rows generalizing index with
  | nil => simp [checkHistory]
  | cons row rows ih =>
    unfold checkHistory
    cases here : statements[index]? with
    | none =>
      have past : statements.length ≤ index := List.getElem?_eq_none_iff.mp here
      rw [List.drop_eq_nil_of_le past]
      simp [recorded, List.getElem?_map, here]
    | some statement =>
      obtain ⟨lt, is⟩ := List.getElem?_eq_some_iff.mp here
      rw [List.drop_eq_getElem_cons lt, is, recorded, List.cons_prefix_cons, ← ih]
      rw [List.getElem?_map, here, Option.map_some]
      split_ifs with wrong
      · constructor
        · nofun
        · rintro ⟨rfl, _⟩
          simp at wrong
      · rw [not_or, not_not, not_not, Option.some.injEq] at wrong
        obtain ⟨position, sum⟩ := wrong
        have same : row = ⟨index, checksum engine statement⟩ := by
          cases row
          simp only at position sum
          rw [position, sum]
        exact ⟨fun fine => ⟨same, fine⟩, And.right⟩

theorem history_ensureJournal : history (ensureJournal db) = history db := rfl

/-- The history is sorted by the positions, whatever the order of the rows. -/
theorem history_of_perm (there : db.journal = some rows)
    (perm : rows.Perm (recorded engine index statements)) :
    history db = recorded engine index statements := by
  have sorted : (recorded engine index statements).Pairwise fun a b => a.position < b.position :=
    sorted_recorded
  have distinct : ((recorded engine index statements).map Migration.position).Nodup :=
    List.pairwise_map.mpr (sorted.imp ne_of_lt)
  have apart : ∀ a ∈ rows, ∀ b ∈ rows, a.position = b.position → a = b := by
    intro a first b second same
    exact List.inj_on_of_nodup_map distinct (perm.mem_iff.mp first) (perm.mem_iff.mp second) same
  have fixed : byRank Migration.position (recorded engine index statements) =
      recorded engine index statements := (sorted.imp le_of_lt).insertionSort_eq
  have same : history db = byRank Migration.position rows := by
    unfold history
    rw [there]
    rfl
  rw [same, byRank_of_perm perm apart, fixed]

/-! ## Running the missing statements -/

/-- A statement that neither ends the transaction nor writes the history. -/
def Ordinary (engine : Engine σ) (statement : List Char) : Prop :=
  ∀ session, (engine.exec statement session).1.restore = session.restore ∧
    (engine.exec statement session).1.now.journal = session.now.journal

/-- The statements are executed one after the other, and each is recorded after it. -/
inductive Applied (engine : Engine σ) (base : Database σ) :
    ℕ → List (List Char) → Database σ → Database σ → Prop where
  | nil {index : ℕ} {db : Database σ} : Applied engine base index [] db db
  | cons {index : ℕ} {statement : List Char} {statements : List (List Char)}
      {db next final : Database σ} {session : Session σ} :
      engine.exec statement ⟨db, some base⟩ = (session, none) →
      insertMigration ⟨index, checksum engine statement⟩ session.now = some next →
      Applied engine base (index + 1) statements next final →
      Applied engine base index (statement :: statements) db final

/-- After some of the statements one fails. -/
def Fails (engine : Engine σ) (base : Database σ) (index : ℕ) (statements : List (List Char))
    (db : Database σ) : Prop :=
  ∃ done statement later at_ session message, statements = done ++ statement :: later ∧
    Applied engine base index done db at_ ∧
    engine.exec statement ⟨at_, some base⟩ = (session, some message)

theorem Fails.cons {statement : List Char} {session : Session σ} {next : Database σ}
    (runs : engine.exec statement ⟨db, some base⟩ = (session, none))
    (inserted : insertMigration ⟨index, checksum engine statement⟩ session.now = some next)
    (fails : Fails engine base (index + 1) statements next) :
    Fails engine base index (statement :: statements) db := by
  obtain ⟨done, failing, later, at_, after, message, rfl, applied, is⟩ := fails
  exact ⟨statement :: done, failing, later, at_, after, message, rfl, .cons runs inserted applied, is⟩

theorem insertMigration_fresh {row : Migration} (there : db.journal = some rows)
    (fresh : ∀ r ∈ rows, r.position ≠ row.position) :
    insertMigration row db = some { db with journal := some (rows ++ [row]) } := by
  unfold insertMigration
  rw [there]
  dsimp only
  rw [if_neg]
  rw [List.any_eq_true]
  rintro ⟨r, member, same⟩
  exact fresh r member (of_decide_eq_true same)

theorem applyFrom_cases (ordinary : ∀ s ∈ statements, Ordinary engine s)
    (there : db.journal = some rows) (perm : rows.Perm (recorded engine 0 done)) :
    (∃ final rows', Applied engine base done.length statements db final ∧
      applyFrom engine done.length statements ⟨db, some base⟩ = (⟨final, some base⟩, .ok ()) ∧
      final.journal = some rows' ∧ rows'.Perm (recorded engine 0 (done ++ statements))) ∨
    (Fails engine base done.length statements db ∧ ∃ session e,
      applyFrom engine done.length statements ⟨db, some base⟩ = (session, .error e) ∧
      session.restore = some base) := by
  induction statements generalizing done db rows with
  | nil =>
    left
    exact ⟨db, rows, .nil, rfl, there, by rwa [List.append_nil]⟩
  | cons statement statements ih =>
    obtain ⟨keeps, quiet⟩ := ordinary statement List.mem_cons_self ⟨db, some base⟩
    obtain ⟨⟨session, failure⟩, is⟩ :
        ∃ result, engine.exec statement ⟨db, some base⟩ = result := ⟨_, rfl⟩
    rw [is] at keeps quiet
    dsimp only at keeps quiet
    unfold applyFrom
    rw [is]
    cases failure with
    | some message =>
      right
      refine ⟨?_, session, .sql message, rfl, keeps⟩
      exact ⟨[], statement, statements, db, session, message, rfl, .nil, is⟩
    | none =>
      have fresh : ∀ r ∈ rows, r.position ≠ (done.length : ℤ) := by
        intro r member
        have range := position_recorded r (perm.mem_iff.mp member)
        omega
      have inserted : insertMigration ⟨done.length, checksum engine statement⟩ _ = _ :=
        insertMigration_fresh (quiet.trans there) fresh
      dsimp only
      rw [inserted]
      dsimp only
      rw [keeps]
      have more : (rows ++ [Migration.mk done.length (checksum engine statement)]).Perm
          (recorded engine 0 (done ++ [statement])) := by
        rw [recorded_append, Nat.zero_add]
        exact perm.append_right _
      have journal : ({ session.now with
          journal := some (rows ++ [Migration.mk done.length (checksum engine statement)]) } :
            Database σ).journal = some _ := rfl
      have later := ih (fun s member => ordinary s (List.mem_cons_of_mem _ member)) journal more
      rw [List.length_append, List.length_singleton, List.append_assoc, List.singleton_append] at later
      rcases later with ⟨final, rows', applied, ends, all, permAll⟩ | ⟨fails, stops⟩
      · left
        exact ⟨final, rows', .cons is inserted applied, ends, all, permAll⟩
      · right
        exact ⟨fails.cons is inserted, stops⟩

/-! ## The whole upgrade -/

theorem upgrade_changed (changed : ¬ history db <+: recorded engine 0 statements) :
    ∃ e, migrate engine statements db = (db, .error e) := by
  unfold migrate transaction upgrade
  dsimp only
  rw [history_ensureJournal]
  cases checked : checkHistory (statements.map (checksum engine)) 0 (history db) with
  | error e => exact ⟨e, rfl⟩
  | ok _ =>
    have first := checkHistory_iff.mp checked
    rw [List.drop_zero] at first
    exact absurd first changed

theorem upgrade_legacy (first : history db <+: recorded engine 0 statements) (none_ : history db = [])
    (tables : engine.hasPublicTables (ensureJournal db) = true) :
    migrate engine statements db = (db, .error legacySchema) := by
  have checked : checkHistory (statements.map (checksum engine)) 0 (history db) = .ok () :=
    checkHistory_iff.mpr first
  unfold migrate transaction upgrade
  dsimp only
  rw [history_ensureJournal, checked, none_, tables]
  rfl

theorem upgrade_missing (first : history db <+: recorded engine 0 statements)
    (adopted : history db ≠ [] ∨ engine.hasPublicTables (ensureJournal db) = false) :
    migrate engine statements db = transaction db fun _ =>
      applyFrom engine (history db).length (statements.drop (history db).length)
        ⟨ensureJournal db, some db⟩ := by
  have checked : checkHistory (statements.map (checksum engine)) 0 (history db) = .ok () :=
    checkHistory_iff.mpr first
  have guarded : ((history db).isEmpty && engine.hasPublicTables (ensureJournal db)) = false := by
    rw [Bool.and_eq_false_iff, List.isEmpty_eq_false_iff]
    exact adopted
  unfold migrate transaction upgrade
  dsimp only
  rw [history_ensureJournal, checked]
  dsimp only
  rw [guarded]
  rfl

/-- A database that is up to date stays as it is. -/
theorem migrate_again (there : db.journal ≠ none) (whole : history db = recorded engine 0 statements)
    (adopted : history db ≠ [] ∨ engine.hasPublicTables db = false) :
    migrate engine statements db = (db, .ok ()) := by
  have same : ensureJournal db = db := by
    unfold ensureJournal
    obtain ⟨journal, rest⟩ := db
    cases journal with
    | none => exact absurd rfl there
    | some rows => rfl
  have length : (history db).length = statements.length := by rw [whole, length_recorded]
  rw [upgrade_missing (whole ▸ List.prefix_refl _) (by rw [same]; exact adopted), length,
    List.drop_length, same]
  rfl

theorem history_perm (db : Database σ) : (db.journal.getD []).Perm (history db) :=
  (List.perm_insertionSort _ _).symm

/-- The upgrade throws and leaves the database as it was, or it applies what is missing. -/
theorem migrate_cases (engine : Engine σ) (statements : List (List Char)) (db : Database σ)
    (ordinary : ∀ s ∈ statements.drop (history db).length, Ordinary engine s) :
    ((∃ e, migrate engine statements db = (db, .error e)) ∧
      (¬ history db <+: recorded engine 0 statements ∨
        (history db = [] ∧ engine.hasPublicTables (ensureJournal db) = true) ∨
        Fails engine db (history db).length (statements.drop (history db).length)
          (ensureJournal db))) ∨
    (history db <+: recorded engine 0 statements ∧
      (history db ≠ [] ∨ engine.hasPublicTables (ensureJournal db) = false) ∧
      ∃ final, migrate engine statements db = (final, .ok ()) ∧
        Applied engine db (history db).length (statements.drop (history db).length)
          (ensureJournal db) final ∧
        history final = recorded engine 0 statements ∧
        migrate engine statements final = (final, .ok ())) := by
  by_cases first : history db <+: recorded engine 0 statements
  · by_cases legacy : history db = [] ∧ engine.hasPublicTables (ensureJournal db) = true
    · left
      exact ⟨⟨legacySchema, upgrade_legacy first legacy.1 legacy.2⟩, Or.inr (Or.inl legacy)⟩
    · have adopted : history db ≠ [] ∨ engine.hasPublicTables (ensureJournal db) = false := by
        rwa [not_and_or, Bool.not_eq_true] at legacy
      have done : recorded engine 0 (statements.take (history db).length) = history db := by
        rw [recorded_take]
        exact (List.prefix_iff_eq_take.mp first).symm
      have count : (statements.take (history db).length).length = (history db).length := by
        have length : (recorded engine 0 (statements.take (history db).length)).length =
            (statements.take (history db).length).length := length_recorded
        rw [← length, done]
      have listed : (db.journal.getD []).Perm
          (recorded engine 0 (statements.take (history db).length)) := by
        rw [done]
        exact history_perm db
      have there : (ensureJournal db).journal = some (db.journal.getD []) := rfl
      have run : (∃ final rows', Applied engine db _ _ _ final ∧ _) ∨ _ :=
        applyFrom_cases ordinary there listed
      rw [count, List.take_append_drop] at run
      rw [upgrade_missing first adopted]
      unfold transaction
      rcases run with ⟨final, rows, applied, ends, there, perm⟩ | ⟨fails, session, e, ends, keeps⟩
      · right
        have whole := history_of_perm there perm
        refine ⟨first, adopted, final, by rw [ends], applied, whole, ?_⟩
        apply migrate_again (by rw [there]; nofun) whole
        cases statements with
        | nil =>
          have none_ : history db = [] := List.prefix_nil.mp first
          rw [none_] at applied
          cases applied
          rw [none_] at adopted
          exact Or.inr (adopted.resolve_left fun absent => absent rfl)
        | cons statement statements =>
          left
          rw [whole]
          exact List.cons_ne_nil _ _
      · left
        refine ⟨⟨e, ?_⟩, Or.inr (Or.inr fails)⟩
        rw [ends]
        dsimp only
        rw [keeps]
        rfl
  · left
    exact ⟨upgrade_changed first, Or.inl first⟩

end Migrate

/-- Scripts on a database of which only matters whether it has a public table. -/
def scripts : Engine Bool where
  exec statement session :=
    if statement = "create table t (id text)".toList then
      ({ session with now := { session.now with rest := true } }, none)
    else if statement = "delete from artoo_meta.migrations".toList then
      ({ session with now := { session.now with journal := some [] } }, none)
    else if statement = "commit".toList then ({ session with restore := none }, none)
    else (session, some "syntax error")
  hasPublicTables db := db.rest
  sha256 text := text

theorem ordinary_create : Ordinary scripts "create table t (id text)".toList := by
  intro session
  exact ⟨rfl, rfl⟩

theorem migrate_cases_create :
    ∃ final, migrate scripts ["create table t (id text)".toList] ⟨none, false⟩ = (final, .ok ()) ∧
      history final = recorded scripts 0 ["create table t (id text)".toList] := by
  rcases migrate_cases scripts ["create table t (id text)".toList] ⟨none, false⟩
    (by intro s there; rw [List.mem_singleton.mp there]; exact ordinary_create) with
    ⟨⟨e, fails⟩, _⟩ | ⟨_, _, final, runs, _, whole, _⟩
  · have fine : (migrate scripts ["create table t (id text)".toList] ⟨none, false⟩).2 = .ok () := rfl
    rw [fails] at fine
    cases fine
  · exact ⟨final, runs, whole⟩

/-- An empty history in a database that has tables; a migration that deletes the history; and one
that ends the transaction before another one fails. -/
theorem migrate_unlike :
    (∃ e, migrate scripts [] ⟨none, true⟩ = (⟨none, true⟩, .error e)) ∧
    (let statements := ["create table t (id text)".toList, "delete from artoo_meta.migrations".toList]
      ∃ final, migrate scripts statements ⟨none, false⟩ = (final, .ok ()) ∧
        history final ≠ recorded scripts 0 statements) ∧
    (let statements := ["create table t (id text)".toList, "commit".toList, "nothing".toList]
      ∃ final e, migrate scripts statements ⟨none, false⟩ = (final, .error e) ∧
        final ≠ ⟨none, false⟩) := by
  refine ⟨⟨_, rfl⟩, ⟨_, rfl, ?_⟩, ⟨_, _, rfl, ?_⟩⟩
  · intro same
    exact absurd (congrArg List.length same) (by decide)
  · intro same
    exact absurd (congrArg Database.rest same) (by decide)

end Artoo.Storage.Migrations
