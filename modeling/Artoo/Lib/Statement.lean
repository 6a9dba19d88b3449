import Artoo.Lib.Interference

/-! The statements of a transaction over any database, with their rules. -/
namespace Artoo.Lib.Tx

variable {σ ω κ ι ε α β : Type}

/-- `select`. -/
def query (rows : σ → α) : Tx σ ω κ ι ε α := .stmt (fun _ => []) (fun _ => []) fun db => .done (rows db)

/-- `select … for update`. -/
def queryForUpdate (rows : σ → List α) (lock : α → κ) : Tx σ ω κ ι ε (List α) :=
  .stmt (fun db => (rows db).map lock) (fun _ => []) fun db => .done (rows db)

/-- `update … where …` or `delete`, given the matching rows. -/
def change (matching : σ → List α) (set : α → ω) : Tx σ ω κ ι ε (List α) :=
  .stmt (fun _ => []) (fun db => (matching db).map set) fun db => .done (matching db)

/-- `insert`, refused where a unique key is taken. -/
def add (taken : σ → Bool) (w : ω) (e : ε) : Tx σ ω κ ι ε Unit :=
  .stmt (fun _ => []) (fun db => if taken db then [] else [w]) fun db =>
    if taken db then .fail e else .done ()

/-- A value that the database does not decide. -/
def drawn : Tx σ ω κ ι ε ι := .draw .done

def check (refused : Bool) (e : ε) : Tx σ ω κ ι ε Unit := if refused then .fail e else .done ()

def require (found : Option α) (e : ε) : Tx σ ω κ ι ε α :=
  match found with
  | some a => .done a
  | none => .fail e

def ofResult : Except ε α → Tx σ ω κ ι ε α
  | .ok a => .done a
  | .error e => .fail e

/-- A program of one part of a database, as a program of the whole. -/
def lift {σ' ω' κ' ε' : Type} (get : σ' → σ) (write : ω → ω') (lock : κ → κ') (error : ε → ε') :
    Tx σ ω κ ι ε α → Tx σ' ω' κ' ι ε' α
  | .done a => .done a
  | .fail e => .fail (error e)
  | .draw next => .draw fun i => (next i).lift get write lock error
  | .stmt locks writes next =>
    .stmt (fun db => (locks (get db)).map lock) (fun db => (writes (get db)).map write)
      fun db => (next (get db)).lift get write lock error

section Lift

variable {σ' ω' κ' ε' : Type} {get : σ' → σ} {write : ω → ω'} {lock : κ → κ'} {error : ε → ε'}

/-- A part's program writes, to the whole, the writes of the part. -/
theorem writes_lift {P : σ → ω → Prop} {p : Tx σ ω κ ι ε α} (h : Writes P p) :
    Writes (fun view w' => ∃ w, w' = write w ∧ P (get view) w) (p.lift get write lock error) := by
  induction p with
  | done a => trivial
  | fail e => trivial
  | draw next ih => exact fun i => ih i (h i)
  | stmt locks writes next ih =>
    intro view
    refine ⟨fun w' written => ?_, ih _ (h _).2⟩
    obtain ⟨w, member, rfl⟩ := List.mem_map.mp written
    exact ⟨w, rfl, (h _).1 w member⟩

end Lift

/-! ## What the statements write -/

section Writes

variable {P : σ → ω → Prop}

theorem writes_query {rows : σ → α} : Writes P (query rows : Tx σ ω κ ι ε α) :=
  fun _ => ⟨fun _ written => absurd written List.not_mem_nil, trivial⟩

theorem writes_queryForUpdate {rows : σ → List α} {lock : α → κ} :
    Writes P (queryForUpdate rows lock : Tx σ ω κ ι ε (List α)) :=
  fun _ => ⟨fun _ written => absurd written List.not_mem_nil, trivial⟩

theorem writes_change {matching : σ → List α} {set : α → ω}
    (rows : ∀ view, ∀ a ∈ matching view, P view (set a)) :
    Writes P (change matching set : Tx σ ω κ ι ε (List α)) := by
  intro view
  refine ⟨fun w written => ?_, trivial⟩
  obtain ⟨a, member, rfl⟩ := List.mem_map.mp written
  exact rows view a member

theorem writes_add {taken : σ → Bool} {w : ω} {e : ε}
    (row : ∀ view, taken view = false → P view w) : Writes P (add taken w e : Tx σ ω κ ι ε Unit) := by
  intro view
  dsimp only
  cases fresh : taken view with
  | true => exact ⟨fun _ written => absurd written List.not_mem_nil, trivial⟩
  | false =>
    refine ⟨fun w' written => ?_, trivial⟩
    rw [if_neg (by simp), List.mem_singleton] at written
    exact written ▸ row view fresh

theorem writes_drawn : Writes P (drawn : Tx σ ω κ ι ε ι) := fun _ => trivial

theorem writes_check {refused : Bool} {e : ε} : Writes P (check refused e : Tx σ ω κ ι ε Unit) := by
  cases refused <;> trivial

theorem writes_require {found : Option α} {e : ε} :
    Writes P (require found e : Tx σ ω κ ι ε α) := by
  cases found <;> trivial

theorem writes_ofResult {x : Except ε α} : Writes P (ofResult x : Tx σ ω κ ι ε α) := by
  cases x <;> trivial

theorem writes_mapM {body : β → Tx σ ω κ ι ε α} {items : List β}
    (round : ∀ b ∈ items, Writes P (body b)) : Writes P (items.mapM body) := by
  induction items with
  | nil => exact writes_done
  | cons b items ih =>
    rw [List.mapM_cons]
    apply writes_bind (round b List.mem_cons_self)
    intro _
    exact writes_bind (ih fun c member => round c (List.mem_cons_of_mem _ member)) fun _ => writes_done

end Writes

/-! ## Runs that succeed -/

section Succeeds

variable [Tables σ ω κ] {input : Nat → ι} {n : Nat} {db : σ}

/-- With these drawn values the program ends, without an error and in `post`. -/
def succeeds (input : Nat → ι) : Tx σ ω κ ι ε α → (α → σ → Nat → Prop) → Nat → σ → Prop
  | done a, post, n, db => post a db n
  | fail _, _, _, _ => False
  | draw next, post, n, db => succeeds input (next (input n)) post (n + 1) db
  | stmt _ writes next, post, n, db => succeeds input (next db) post n (writeAll (writes db) db)

theorem succeeds_iff {p : Tx σ ω κ ι ε α} {post : α → σ → Nat → Prop} :
    succeeds input p post n db ↔ ∃ a db' m, run input p n db = .ok (a, db', m) ∧ post a db' m := by
  induction p generalizing n db with
  | done a =>
    constructor
    · exact fun h => ⟨a, db, n, rfl, h⟩
    · rintro ⟨_, _, _, ⟨⟩, h⟩
      exact h
  | fail e =>
    constructor
    · exact False.elim
    · rintro ⟨_, _, _, ⟨⟩, _⟩
  | draw next ih => exact ih _
  | stmt locks writes next ih => exact ih _

theorem succeeds_execute {p : Tx σ ω κ ι ε α} {post : α → σ → Nat → Prop}
    (h : succeeds input p post 0 db) :
    ∃ a m, (p.execute input db).1 = .ok a ∧ post a (p.execute input db).2 m := by
  obtain ⟨a, db', m, result, holds⟩ := succeeds_iff.mp h
  unfold execute
  rw [result]
  exact ⟨a, m, rfl, holds⟩

theorem succeeds_mono {p : Tx σ ω κ ι ε α} {post weaker : α → σ → Nat → Prop}
    (h : succeeds input p post n db) (weaken : ∀ a db' m, post a db' m → weaker a db' m) :
    succeeds input p weaker n db := by
  obtain ⟨a, db', m, result, holds⟩ := succeeds_iff.mp h
  exact succeeds_iff.mpr ⟨a, db', m, result, weaken a db' m holds⟩

theorem succeeds_bind {p : Tx σ ω κ ι ε α} {f : α → Tx σ ω κ ι ε β} {post : β → σ → Nat → Prop} :
    succeeds input (p >>= f) post n db ↔
      succeeds input p (fun a db' m => succeeds input (f a) post m db') n db := by
  induction p generalizing n db with
  | done a => exact Iff.rfl
  | fail e => exact Iff.rfl
  | draw next ih => exact ih _
  | stmt locks writes next ih => exact ih _

theorem succeeds_seq {p : Tx σ ω κ ι ε α} {f : α → Tx σ ω κ ι ε β} {mid : α → σ → Nat → Prop}
    {post : β → σ → Nat → Prop} (first : succeeds input p mid n db)
    (rest : ∀ a db' m, mid a db' m → succeeds input (f a) post m db') :
    succeeds input (p >>= f) post n db :=
  succeeds_bind.mpr (succeeds_mono first rest)

@[simp] theorem succeeds_query {rows : σ → α} {post : α → σ → Nat → Prop} :
    succeeds input (query rows : Tx σ ω κ ι ε α) post n db ↔ post (rows db) db n := Iff.rfl

@[simp] theorem succeeds_queryForUpdate {rows : σ → List α} {lock : α → κ}
    {post : List α → σ → Nat → Prop} :
    succeeds input (queryForUpdate rows lock : Tx σ ω κ ι ε (List α)) post n db ↔
      post (rows db) db n := Iff.rfl

@[simp] theorem succeeds_change {matching : σ → List α} {set : α → ω}
    {post : List α → σ → Nat → Prop} :
    succeeds input (change matching set : Tx σ ω κ ι ε (List α)) post n db ↔
      post (matching db) (writeAll ((matching db).map set) db) n := Iff.rfl

theorem succeeds_add {taken : σ → Bool} {w : ω} {e : ε} {post : Unit → σ → Nat → Prop} :
    succeeds input (add taken w e : Tx σ ω κ ι ε Unit) post n db ↔
      taken db = false ∧ post () (Tables.write w db) n := by
  unfold add
  cases free : taken db with
  | true => simp [succeeds, free]
  | false => simp [succeeds, free]

theorem succeeds_require {found : Option α} {e : ε} {post : α → σ → Nat → Prop} :
    succeeds input (require found e : Tx σ ω κ ι ε α) post n db ↔
      ∃ a, found = some a ∧ post a db n := by
  cases found with
  | none => simp [require, succeeds]
  | some a => simp [require, succeeds]

theorem succeeds_check {refused : Bool} {e : ε} {post : Unit → σ → Nat → Prop} :
    succeeds input (check refused e : Tx σ ω κ ι ε Unit) post n db ↔
      refused = false ∧ post () db n := by
  cases refused with
  | true => simp [check, succeeds]
  | false => simp [check, succeeds]

theorem succeeds_ofResult {x : Except ε α} {post : α → σ → Nat → Prop} :
    succeeds input (ofResult x : Tx σ ω κ ι ε α) post n db ↔ ∃ a, x = .ok a ∧ post a db n := by
  cases x with
  | error e => simp [ofResult, succeeds]
  | ok a => simp [ofResult, succeeds]

/-- The loop rule: each round succeeds from the invariant of what is left. -/
theorem succeeds_forM {I : List β → σ → Nat → Prop} {body : β → Tx σ ω κ ι ε PUnit}
    {items : List β}
    (round : ∀ b rest m db', I (b :: rest) db' m →
      succeeds input (body b) (fun _ db'' m' => I rest db'' m') m db')
    (initial : I items db n) :
    succeeds input (items.forM body) (fun _ db' m => I [] db' m) n db := by
  induction items generalizing n db with
  | nil => exact initial
  | cons b items ih =>
    change succeeds input (body b >>= fun _ => items.forM body) _ _ _
    exact succeeds_seq (round b items n db initial) fun _ db' m kept => ih kept

end Succeeds

/-! ## Runs that may be refused -/

section Refused

variable [Tables σ ω κ] {db : σ}

@[simp] theorem wp_query {rows : σ → α} {post : α → σ → Prop} :
    wp (query rows : Tx σ ω κ ι ε α) post db ↔ post (rows db) db := Iff.rfl

@[simp] theorem wp_queryForUpdate {rows : σ → List α} {lock : α → κ} {post : List α → σ → Prop} :
    wp (queryForUpdate rows lock : Tx σ ω κ ι ε (List α)) post db ↔ post (rows db) db := Iff.rfl

@[simp] theorem wp_change {matching : σ → List α} {set : α → ω} {post : List α → σ → Prop} :
    wp (change matching set : Tx σ ω κ ι ε (List α)) post db ↔
      post (matching db) (writeAll ((matching db).map set) db) := Iff.rfl

theorem wp_add {taken : σ → Bool} {w : ω} {e : ε} {post : Unit → σ → Prop} :
    wp (add taken w e : Tx σ ω κ ι ε Unit) post db ↔
      (taken db = false → post () (Tables.write w db)) := by
  unfold add
  cases free : taken db with
  | true => simp [free]
  | false => simp [free]

theorem wp_check {refused : Bool} {e : ε} {post : Unit → σ → Prop} :
    wp (check refused e : Tx σ ω κ ι ε Unit) post db ↔ (refused = false → post () db) := by
  cases refused with
  | true => simp [check]
  | false => simp [check]

theorem wp_require {found : Option α} {e : ε} {post : α → σ → Prop} :
    wp (require found e : Tx σ ω κ ι ε α) post db ↔ ∀ a, found = some a → post a db := by
  cases found with
  | none => simp [require]
  | some a => simp [require]

theorem wp_ofResult {x : Except ε α} {post : α → σ → Prop} :
    wp (ofResult x : Tx σ ω κ ι ε α) post db ↔ ∀ a, x = .ok a → post a db := by
  cases x with
  | error e => simp [ofResult]
  | ok a => simp [ofResult]

end Refused

/-! ## The statements under concurrent commits -/

section Under

variable [Tables σ ω κ] {R : Rely σ κ} {s : Progress σ ω κ} {post : β → Progress σ ω κ → Prop}

theorem under_query {rows : σ → α} {k : α → Tx σ ω κ ι ε β} :
    under R (query rows >>= k) post s ↔
      ∀ db, R.rel s.locks s.db db → under R (k (rows (s.at_ db).view)) post (s.at_ db) := by
  change (∀ db, _ → under R (k _) post ((s.at_ db).after (fun _ => []) fun _ => [])) ↔ _
  simp only [Progress.after_read]

theorem under_queryForUpdate {rows : σ → List α} {lock : α → κ} {k : List α → Tx σ ω κ ι ε β} :
    under R (queryForUpdate rows lock >>= k) post s ↔
      ∀ db, R.rel s.locks s.db db → under R (k (rows (s.at_ db).view)) post
        ⟨db, s.locks ++ (rows (s.at_ db).view).map lock, s.log⟩ := by
  change (∀ db, _ → under R (k _) post
    ((s.at_ db).after (fun db => (rows db).map lock) fun _ => [])) ↔ _
  simp only [Progress.after, Progress.wants, List.flatMap_nil, List.append_nil]
  exact Iff.rfl

theorem under_change {matching : σ → List α} {set : α → ω} {k : List α → Tx σ ω κ ι ε β} :
    under R (change matching set >>= k) post s ↔
      ∀ db, R.rel s.locks s.db db → under R (k (matching (s.at_ db).view)) post
        ⟨db, s.locks ++ ((matching (s.at_ db).view).map set).flatMap (Tables.guards σ),
          s.log ++ (matching (s.at_ db).view).map set⟩ := by
  change (∀ db, _ → under R (k _) post
    ((s.at_ db).after (fun _ => []) fun db => (matching db).map set)) ↔ _
  simp only [Progress.after, Progress.wants, List.nil_append]
  exact Iff.rfl

theorem under_add {taken : σ → Bool} {w : ω} {e : ε} {k : Unit → Tx σ ω κ ι ε β} :
    under R (add taken w e >>= k) post s ↔
      ∀ db, R.rel s.locks s.db db → taken (s.at_ db).view = false →
        under R (k ()) post ⟨db, s.locks ++ Tables.guards σ w, s.log ++ [w]⟩ := by
  have step : ∀ db, under R ((if taken (s.at_ db).view then .fail e else .done () : Tx σ ω κ ι ε Unit)
        >>= k) post ((s.at_ db).after (fun _ => []) fun view => if taken view then [] else [w]) ↔
      (taken (s.at_ db).view = false →
        under R (k ()) post ⟨db, s.locks ++ Tables.guards σ w, s.log ++ [w]⟩) := by
    intro db
    dsimp only [Progress.after, Progress.wants]
    cases fresh : taken (s.at_ db).view with
    | true =>
      constructor
      · intro _ is
        cases is
      · exact fun _ => trivial
    | false =>
      simp only [Bool.false_eq_true, if_false, List.nil_append, List.flatMap_singleton, true_imp_iff]
      exact Iff.rfl
  exact forall_congr' fun db => imp_congr_right fun _ => step db

theorem under_drawn {k : ι → Tx σ ω κ ι ε β} :
    under R (drawn >>= k) post s ↔ ∀ i, under R (k i) post s := Iff.rfl

theorem under_check {refused : Bool} {e : ε} {k : Unit → Tx σ ω κ ι ε β} :
    under R (check refused e >>= k) post s ↔ (refused = false → under R (k ()) post s) := by
  cases refused with
  | false => exact ⟨fun h _ => h, fun h => h rfl⟩
  | true =>
    constructor
    · intro _ passes
      cases passes
    · exact fun _ => trivial

theorem under_require {found : Option α} {e : ε} {k : α → Tx σ ω κ ι ε β} :
    under R (require found e >>= k) post s ↔ ∀ a, found = some a → under R (k a) post s := by
  cases found with
  | none =>
    constructor
    · intro _ _ is
      cases is
    · exact fun _ => trivial
  | some a =>
    constructor
    · intro h b is
      cases is
      exact h
    · exact fun h => h a rfl

theorem under_ofResult {x : Except ε α} {k : α → Tx σ ω κ ι ε β} :
    under R (ofResult x >>= k) post s ↔ ∀ a, x = .ok a → under R (k a) post s := by
  cases x with
  | error e =>
    constructor
    · intro _ _ is
      cases is
    · exact fun _ => trivial
  | ok a =>
    constructor
    · intro h b is
      cases is
      exact h
    · exact fun h => h a rfl

/-- A program that writes nothing keeps what commits of others and more locks keep. -/
theorem Reads.under {p : Tx σ ω κ ι ε α} {I : Progress σ ω κ → Prop} (h : Reads p)
    (stable : ∀ s db, I s → R.rel s.locks s.db db → I (s.at_ db))
    (lock : ∀ s more, I s → I { s with locks := s.locks ++ more }) (initial : I s) :
    under R p (fun _ s' => I s') s := by
  apply Writes.under h stable _ initial
  intro s locks writes kept none_
  have empty : writes s.view = [] := List.eq_nil_iff_forall_not_mem.mpr none_
  have same : s.after locks writes = { s with locks := s.locks ++ s.wants locks writes } := by
    unfold Progress.after
    rw [empty, List.append_nil]
  rw [same]
  exact lock s _ kept

end Under

end Artoo.Lib.Tx
