import Artoo.Journal.Exec

/-! The admission fence: one fresh admission and one producer for each run, and owner operations
for that admission only. -/
namespace Artoo.Journal
open Artoo.Protocol Artoo.Lib

variable {digest : NodeRunEvent → String} {trace : List (Action × Observation)} {s s' : System}

/-- An action that shows a fresh admission of the run. -/
def admits (r : String) (l : Action × Observation) : Bool :=
  (committed l).any fun call => call.reply.fresh && call.cmd.runId == r

/-- An action that invokes a producer for the run. -/
def starts (r : String) (l : Action × Observation) : Bool := l.2 == .started r

def known (r : String) (db : Database) : Nat := if (db.runs r).isSome then 1 else 0

theorem known_le_one (r : String) (db : Database) : known r db ≤ 1 := by
  unfold known
  split <;> omega

theorem known_absent {r : String} {db : Database} (absent : db.runs r = none) : known r db = 0 := by
  simp [known, absent]

theorem known_stored {db : Database} {c : Cell} (h : Held db c) : known c.row.runId db = 1 := by
  simp [known, h.runs]

theorem Later.known {db db' : Database} (later : Later digest db db') (inv : db.Inv digest)
    (r : String) : known r db ≤ known r db' := by
  cases found : db.runs r with
  | none =>
    rw [known_absent found]
    exact Nat.zero_le _
  | some row =>
    obtain ⟨c, rfl, runId, stored⟩ := inv.stored r row found
    obtain ⟨c', stored', forward⟩ := later c stored
    have names : c'.row.runId = r := forward.runId.trans runId
    rw [← names, known_stored stored'.toHeld]
    exact known_le_one _ db

/-- A fresh reply comes from the admission of an unknown run. -/
theorem Effect.fresh {w : Worker} {cmd : Command} {db db' : Database} {reply : Reply}
    (effect : Effect w cmd db reply db') (fresh : reply.fresh = true) :
    ∃ input, cmd = .admitRun input ∧ db.runs input.runId = none ∧
      Stored w.digest db' (Cell.admitted input w.incarnation) := by
  cases effect with
  | same absent reads unchanged ungranted stale => simp [stale] at fresh
  | admitted command absent reply stored frame => exact ⟨_, command, absent, stored⟩
  | fenced command absent reply stored frame => simp [reply, Reply.fresh] at fresh
  | moved names stored account reports live stale => simp [stale] at fresh

/-- Each fresh admission makes an unknown run known. -/
theorem System.Step.admits {l : Action × Observation} (step : System.Step digest l s s')
    (inv : s.db.Inv digest) (r : String) :
    known r s.db + (if admits r l then 1 else 0) ≤ known r s'.db := by
  have later := (step.later inv).known inv r
  by_cases fresh : Journal.admits r l = true
  · rw [if_pos fresh]
    cases step.acted inv with
    | idle db silent => simp [Journal.admits, silent] at fresh
    | ran shown found ran effect =>
      simp only [Journal.admits, shown, Option.any_some, Bool.and_eq_true, beq_iff_eq] at fresh
      obtain ⟨input, command, absent, stored⟩ := effect.fresh fresh.1
      have names : input.runId = r := by
        rw [← fresh.2, command]
        rfl
      have after := known_stored stored.toHeld
      simp only [Cell.admitted] at after
      rw [← names, known_absent absent, after]
  · rw [if_neg fresh]
    exact later

theorem System.run_admits (run : System.Run digest trace s s') (inv : s.db.Inv digest) (r : String) :
    known r s.db + trace.countP (admits r) ≤ known r s'.db :=
  run.count_le (P := (·.db.Inv digest)) (admits r) (fun s => known r s.db)
    (fun _ _ _ inv step => step.inv inv) (fun _ _ _ inv step => step.admits inv r) inv

/-- A known run is never admitted afresh. -/
theorem System.run_known (run : System.Run digest trace s s') (inv : s.db.Inv digest) {r : String}
    (found : known r s.db = 1) : trace.countP (admits r) = 0 := by
  have counted := System.run_admits run inv r
  have bound := known_le_one r s'.db
  omega

/-! ### Ownership -/

/-- Without the owner's row every owner operation throws. -/
theorem execute_refused {w : Worker} {tx : Tx} {cmd : Command} {o : Owner} {e : JournalError}
    (mine : cmd.owner = some o) (refused : owned w tx.db o = .error e) :
    execute w tx cmd = .error e := by
  cases cmd with
  | lookup | admitRun | stop | pending | delivery => cases mine
  | advance owner revision phase =>
    obtain rfl := Option.some.inj mine
    simp only [execute, keepClock, advance, refused, error_bind]
  | started owner =>
    obtain rfl := Option.some.inj mine
    simp only [execute, keepClock, started, refused, error_bind]
  | producerClosed owner input =>
    obtain rfl := Option.some.inj mine
    simp only [execute, keepClock, producerClosed, refused, error_bind]
  | append owner eventId content =>
    obtain rfl := Option.some.inj mine
    simp only [execute, keepClock, append, refused, error_bind]
  | live owner op =>
    obtain rfl := Option.some.inj mine
    simp only [execute, executeLive, refused, error_bind]

theorem execute_owned {w : Worker} {tx : Tx} {cmd : Command} {o : Owner} {result : Reply × Tx}
    (mine : cmd.owner = some o) (ran : execute w tx cmd = .ok result) :
    ∃ row, tx.db.runs o.runId = some row ∧ row.ownerIncarnation = some w.incarnation ∧
      row.ownerNonce = some o.nonce ∧ row.launchKey = some o.key := by
  cases checked : owned w tx.db o with
  | error e => simp [execute_refused mine checked] at ran
  | ok row => exact ⟨row, owned_ok checked⟩

/-- The fresh admission behind an owned row. -/
def AdmittedBy (r : String) (incarnation nonce key : String) (l : Action × Observation) : Prop :=
  ∃ call input, committed l = some call ∧ call.reply.fresh = true ∧ call.cmd = .admitRun input ∧
    call.incarnation = incarnation ∧ input.runId = r ∧ input.nonce = nonce ∧ input.key = key

/-- Every owner column was written by a fresh admission of the history. -/
def Owners (past : List (Action × Observation)) (db : Database) : Prop :=
  ∀ r row incarnation nonce key, db.runs r = some row → row.ownerIncarnation = some incarnation →
    row.ownerNonce = some nonce → row.launchKey = some key →
    ∃ l ∈ past, AdmittedBy r incarnation nonce key l

theorem System.Step.owners {past : List (Action × Observation)} {l : Action × Observation}
    (step : System.Step digest l s s') (inv : s.db.Inv digest) (owners : Owners past s.db) :
    Owners (past ++ [l]) s'.db := by
  intro r row incarnation nonce key found mine withNonce withKey
  have earlier : ∀ {c : Cell}, Stored digest s.db c → c.row.runId = r →
      c.row.ownerIncarnation = row.ownerIncarnation → c.row.ownerNonce = row.ownerNonce →
      c.row.launchKey = row.launchKey →
      ∃ l' ∈ past ++ [l], AdmittedBy r incarnation nonce key l' := by
    intro c stored names sameOwner sameNonce sameKey
    obtain ⟨l', member, admitted⟩ := owners r c.row incarnation nonce key (names ▸ stored.runs)
      (sameOwner.trans mine) (sameNonce.trans withNonce) (sameKey.trans withKey)
    exact ⟨l', List.mem_append_left _ member, admitted⟩
  obtain ⟨c', rfl, names, stored'⟩ := (step.inv inv).stored r row found
  cases step.acted inv with
  | idle db silent => exact earlier (db ▸ stored') names rfl rfl rfl
  | @ran call p tx shown processes ran effect =>
    cases effect.origin inv stored'.toHeld with
    | kept stored => exact earlier stored names rfl rfl rfl
    | moved named stored account =>
      have forward := path_forward account.moves.path stored.inv
      exact earlier stored (forward.runId.symm.trans names) forward.ownerIncarnation.symm
        forward.ownerNonce.symm forward.launchKey.symm
    | fenced stale absent cell =>
      rw [cell] at mine
      cases mine
    | @admitted input command reply absent cell =>
      rw [cell] at mine withNonce withKey names
      refine ⟨l, by simp, call, input, shown, ?_, command, ?_, names, ?_, ?_⟩
      · rw [reply]
        rfl
      · exact Option.some.inj mine
      · exact Option.some.inj withNonce
      · exact Option.some.inj withKey

theorem System.run_owners (run : System.Run digest trace .initial s) : Owners trace s.db := by
  have both := run.history (H := fun past t => t.db.Inv digest ∧ Owners past t.db)
    (fun past l s t h step => ⟨step.inv h.1, step.owners h.1 h.2⟩) []
    ⟨Database.empty_inv digest, fun _ _ _ _ _ found => nomatch found⟩
  exact both.2

/-! ### Permits and producers -/

/-- What an action does to the permits. -/
inductive Permits (l : Action × Observation) (ps : List Permit) : List Permit → Prop where
  | observed (f : Permit → Permit) (keeps : ∀ p, (f p).owner = p.owner ∧ (f p).bridge = p.bridge)
      (idle : ∀ r, l.2 ≠ .started r) : Permits l ps (ps.map f)
  | minted {p : Permit} {r : String} (fresh : admits r l = true) (owner : p.owner.runId = r)
      (unused : p.bridge = .unused) (idle : ∀ r, l.2 ≠ .started r) : Permits l ps (ps ++ [p])
  | bridged {i : Nat} {p : Permit} (bridge : Bridge) (found : ps[i]? = some p)
      (unspent : p.bridge ≠ .spent)
      (start : ∀ r, l.2 = .started r → p.owner.runId = r ∧ bridge = .spent) :
      Permits l ps (ps.set i { p with bridge := bridge })

theorem Permit.observe_keeps (p : Permit) (reply : Reply) :
    (p.observe reply).owner = p.owner ∧ (p.observe reply).bridge = p.bridge := by
  unfold observe
  split <;> exact ⟨rfl, rfl⟩

/-- A delivered reply mints a permit for a fresh admission and updates the others. -/
theorem System.deliver_permits (t : System) (incarnation : String) (env : Env) (cmd : Command)
    (reply : Reply) :
    Permits (.call incarnation env cmd, .called (.replied reply)) t.permits
      (t.deliver incarnation cmd reply).permits := by
  unfold System.deliver
  split
  next input run =>
    refine .minted (r := input.runId) ?_ rfl rfl (fun _ same => nomatch same)
    simp [Journal.admits, committed, Outcome.committed, Reply.fresh, Command.runId]
  next =>
    refine .observed _ (fun p => ?_) (fun _ same => nomatch same)
    split
    · exact p.observe_keeps reply
    · exact ⟨rfl, rfl⟩

theorem Permits.refl {l : Action × Observation} {ps : List Permit} (idle : ∀ r, l.2 ≠ .started r) :
    Permits l ps ps := by
  have same : Permits l ps (ps.map fun p => p) := .observed _ (fun _ => ⟨rfl, rfl⟩) idle
  rwa [List.map_id'] at same

theorem System.Step.permits {l : Action × Observation} (step : System.Step digest l s s')
    (inv : s.db.Inv digest) : Permits l s.permits s'.permits := by
  obtain ⟨action, observation⟩ := l
  obtain ⟨allowed, result⟩ := step
  cases action with
  | launch incarnation clockId reading =>
    cases result
    exact .refl (by simp)
  | claimStart i =>
    simp only [System.step] at result
    split at result
    next => cases result; exact .refl (by simp)
    next p found =>
      split at result
      next ready =>
        cases result
        exact .bridged .claimed found (by simp [ready.2.2]) (by simp)
      next => cases result; exact .refl (by simp)
  | invoke i fault =>
    simp only [System.step] at result
    split at result
    next => cases result; exact .refl (by simp)
    next p found =>
      split at result
      next => cases result; exact .refl (by simp)
      next claimed =>
        cases result
        have kept := (s.call_lookup digest p.incarnation (lookupEnv fault) p.owner.runId).2
        simp only [System.setPermit, kept]
        refine .bridged .spent found (by simp [not_not.mp claimed]) fun r started => ?_
        dsimp only at started
        split at started
        · exact ⟨Observation.started.inj started, rfl⟩
        · cases started
  | call incarnation env cmd =>
    have called := System.call_spec inv incarnation allowed.1 allowed.2
    simp only [System.step] at result
    generalize s.call digest incarnation env cmd = pair at called result
    obtain ⟨outcome, t⟩ := pair
    have kept : t.permits = s.permits := by
      cases called with
      | failed db permits external => exact permits
      | committed found up ran shown db permits effect => exact permits
    cases outcome with
    | failed e | lost reply =>
      cases result
      exact kept ▸ .refl (by simp)
    | replied reply =>
      cases result
      exact kept ▸ t.deliver_permits incarnation env cmd reply

def held (r : String) (ps : List Permit) : Nat := ps.countP (·.owner.runId == r)

def used (r : String) (ps : List Permit) : Nat :=
  ps.countP fun p => p.owner.runId == r && p.bridge == .spent

theorem used_le_held (r : String) (ps : List Permit) : used r ps ≤ held r ps :=
  List.countP_mono_left fun _ _ both => (Bool.and_eq_true_iff.mp both).1

/-- Permits are minted only by fresh admissions. -/
theorem Permits.held {l : Action × Observation} {ps ps' : List Permit} (step : Permits l ps ps')
    (r : String) : Journal.held r ps' ≤ Journal.held r ps + (if admits r l then 1 else 0) := by
  cases step with
  | observed f keeps idle =>
    have same : Journal.held r (ps.map f) = Journal.held r ps := by
      unfold Journal.held
      rw [List.countP_map]
      exact List.countP_congr fun _ _ => by simp [keeps]
    omega
  | @minted p r' fresh owner unused idle =>
    unfold Journal.held
    rw [List.countP_append, List.countP_singleton]
    by_cases hit : r' = r
    · subst hit
      simp [fresh, owner]
    · simp [owner, hit]
  | @bridged i p bridge found unspent start =>
    obtain ⟨bound, at_⟩ := List.getElem?_eq_some_iff.mp found
    unfold Journal.held
    rw [List.countP_set bound, at_]
    have positive : (if (p.owner.runId == r) = true then 1 else 0) ≤ ps.countP (·.owner.runId == r) := by
      split
      next hit => exact List.countP_pos_iff.mpr ⟨p, at_ ▸ List.getElem_mem bound, hit⟩
      next => exact Nat.zero_le _
    dsimp only
    omega

/-- Each start spends one permit of its run. -/
theorem Permits.used {l : Action × Observation} {ps ps' : List Permit} (step : Permits l ps ps')
    (r : String) : Journal.used r ps + (if starts r l then 1 else 0) ≤ Journal.used r ps' := by
  have idle_step : (∀ r, l.2 ≠ .started r) → starts r l = false := fun idle => by
    simpa [starts] using idle r
  cases step with
  | observed f keeps idle =>
    have same : Journal.used r (ps.map f) = Journal.used r ps := by
      unfold Journal.used
      rw [List.countP_map]
      exact List.countP_congr fun _ _ => by simp [keeps]
    simp [idle_step idle, same]
  | minted fresh owner unused idle =>
    unfold Journal.used
    rw [List.countP_append]
    simp [idle_step idle]
  | @bridged i p bridge found unspent start =>
    obtain ⟨bound, at_⟩ := List.getElem?_eq_some_iff.mp found
    unfold Journal.used
    rw [List.countP_set bound, at_]
    by_cases started : starts r l = true
    · obtain ⟨owner, spent⟩ := start r (by simpa [starts] using started)
      simp [started, owner, spent, unspent]
    · simp [started, unspent]

/-- Every permit belongs to a known run, and no run has two. -/
theorem System.Step.held_known {l : Action × Observation} (step : System.Step digest l s s')
    (inv : s.db.Inv digest) (r : String) (bounded : held r s.permits ≤ known r s.db) :
    held r s'.permits ≤ known r s'.db := by
  have minted := (step.permits inv).held r
  have grown := step.admits inv r
  omega

theorem System.run_starts (run : System.Run digest trace .initial s) (r : String) :
    trace.countP (starts r) ≤ 1 := by
  have counted := run.count_le (P := fun t => t.db.Inv digest) (starts r) (fun t => used r t.permits)
    (fun _ _ _ inv step => step.inv inv) (fun _ _ _ inv step => (step.permits inv).used r)
    (Database.empty_inv digest)
  have bounded := run.invariant (P := fun t => t.db.Inv digest ∧ held r t.permits ≤ known r t.db)
    (fun _ _ _ h step => ⟨step.inv h.1, step.held_known h.1 r h.2⟩)
    ⟨Database.empty_inv digest, Nat.zero_le _⟩
  have spent := used_le_held r s.permits
  have one := known_le_one r s.db
  omega

/-! ### The fence -/

/-- A committed stop leaves its run known. -/
theorem Effect.stop_known {w : Worker} {db db' : Database} {reply : Reply} {r : String}
    {key : Option String} (effect : Effect w (.stop r key) db reply db') : known r db' = 1 := by
  cases effect with
  | same absent reads => cases reads
  | admitted command => cases command
  | fenced command absent reply stored frame =>
    cases command
    exact known_stored stored.toHeld
  | moved names stored account =>
    have found := known_stored account.moves.stored.toHeld
    rwa [path_runId account.moves.path, names] at found

/-- A run is admitted afresh at most once and not after a stop, at most one producer is started for
it, and every committed owner operation presents the credentials of that admission. -/
theorem admission_fence (run : System.Run digest trace .initial s) (r : String) :
    trace.countP (admits r) ≤ 1 ∧ trace.countP (starts r) ≤ 1 ∧
      (∀ past l rest call key, trace = past ++ l :: rest → committed l = some call →
        call.cmd = .stop r key → rest.countP (admits r) = 0) ∧
      ∀ past l rest call owner, trace = past ++ l :: rest → committed l = some call →
        call.cmd.owner = some owner → owner.runId = r →
        ∃ l' ∈ past, AdmittedBy r call.incarnation owner.nonce owner.key l' := by
  refine ⟨?_, System.run_starts run r, ?_, ?_⟩
  · have counted := System.run_admits run (Database.empty_inv digest) r
    have bound := known_le_one r s.db
    omega
  · rintro past l rest call key rfl shown stop
    obtain ⟨t, before, after⟩ := run.split
    cases after with
    | cons step onward =>
      have inv := System.reachable_inv before
      apply System.run_known onward (step.inv inv)
      cases step.acted inv with
      | idle db silent => simp [silent] at shown
      | ran shown' found ran effect =>
        obtain rfl := Option.some.inj (shown'.symm.trans shown)
        rw [stop] at effect
        exact effect.stop_known
  · rintro past l rest call owner rfl shown mine rfl
    obtain ⟨t, before, after⟩ := run.split
    cases after with
    | cons step onward =>
      cases step.acted (System.reachable_inv before) with
      | idle db silent => simp [silent] at shown
      | ran shown' found ran effect =>
        obtain rfl := Option.some.inj (shown'.symm.trans shown)
        obtain ⟨row, found, incarnation, nonce, key⟩ := execute_owned mine ran
        exact System.run_owners before _ row _ _ _ found incarnation nonce key

/-- The sample run, admitted again by a second worker on the same database. -/
def sampleRestart : List Action := sampleStart ++
  [.launch "second" (some "boot") 5,
   .call "second" (sampleEnv "u5" 6) (.admitRun ⟨"run", .perRun, "key", "{}", "other"⟩)]

theorem admission_fence_restart :
    let trace := (System.initial.exec sampleDigest sampleRestart).1
    trace.any (admits "run") = true ∧ trace.any (starts "run") = true ∧
      trace.countP (admits "run") ≤ 1 ∧ trace.countP (starts "run") ≤ 1 := by
  have checks : allowed sampleDigest "run" .initial sampleRestart = true := by decide +kernel
  have fence := admission_fence (exec_run sampleRestart checks) "run"
  exact ⟨by decide +kernel, by decide +kernel, fence.1, fence.2.1⟩

end Artoo.Journal
