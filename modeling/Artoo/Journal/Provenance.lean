import Artoo.Journal.Exec

/-! Where attempts and acknowledgements come from: a granted claim and, after it, an accepted
receipt for exactly that row and attempt. -/
namespace Artoo.Journal
open Artoo.Protocol Artoo.Lib

variable {w : Worker} {digest : NodeRunEvent → String} {db db' : Database} {c c' : Cell}
  {cmd : Command} {reply : Reply} {ls : List Label}

/-! ### One step, one path -/

/-- A new attempt is an old one, acknowledged at most by the labels, or a claimed one. -/
def Traced (ls : List Label) (rows rows' : List EventRow) : Prop :=
  ∀ e' ∈ rows', ∀ a' ∈ e'.attempts,
    (∃ e ∈ rows, e.core = e'.core ∧ ∃ a ∈ e.attempts, a.id = a'.id ∧
      (a'.accepted = true → a.accepted = true ∨ .accept e'.sequence a'.id ∈ ls)) ∨
    ((∃ now, .claim e'.sequence a'.id now ∈ ls) ∧
      (a'.accepted = true → .accept e'.sequence a'.id ∈ ls))

theorem Traced.refl (ls : List Label) (rows : List EventRow) : Traced ls rows rows :=
  fun e' member a' attempted => .inl ⟨e', member, rfl, a', attempted, rfl, .inl⟩

theorem Traced.append {ls : List Label} {rows rows' more : List EventRow}
    (traced : Traced ls rows rows') (untried : ∀ e ∈ more, e.attempts = []) :
    Traced ls rows (rows' ++ more) := by
  intro e' member a' attempted
  rcases List.mem_append.mp member with old | new
  · exact traced e' old a' attempted
  · rw [untried e' new] at attempted
    cases attempted

theorem Traced.of_retouch {ls : List Label} {target : EventRow} {set : EventRow → EventRow} {n : Nat}
    (h : Retouch c target set n) (inv : LogInv digest c.row c.rows)
    (changed : ∀ a' ∈ (set target).attempts,
      (∃ a ∈ target.attempts, a.id = a'.id ∧
        (a'.accepted = true → a.accepted = true ∨ .accept target.sequence a'.id ∈ ls)) ∨
      ((∃ now, .claim target.sequence a'.id now ∈ ls) ∧
        (a'.accepted = true → .accept target.sequence a'.id ∈ ls))) :
    Traced ls c.rows (c.retouched target set n).rows := by
  intro e' member a' attempted
  rcases (h.mem_rows inv).mp member with rfl | ⟨old, _⟩
  · rw [h.ages.sequence]
    rcases changed a' attempted with ⟨a, was, same⟩ | new
    · exact .inl ⟨target, h.member, h.ages.core.symm, a, was, same⟩
    · exact .inr new
  · exact .inl ⟨e', old, rfl, a', attempted, rfl, .inl⟩

theorem failed_traced {target : EventRow} {attemptId : String} {reason : DeliveryFailureReason}
    {exhausted : Bool} (failing : Failing c target attemptId reason exhausted)
    (inv : LogInv digest c.row c.rows) (ls : List Label) :
    Traced ls c.rows (c.failed target attemptId reason exhausted).rows := by
  refine Traced.of_retouch (Cell.failed_retouch failing) inv fun a' attempted => .inl ?_
  obtain ⟨a, was, id, -, accepted, -⟩ := mem_markFailure attempted
  exact ⟨a, was, id.symm, fun h => .inl (accepted ▸ h)⟩

theorem Step.traced {l : Label} (inv : c.Inv digest) (step : Step digest l c c') :
    Traced [l] c.rows c'.rows := by
  cases step with
  | stop | advance | launch | clockLost | abort | report => exact .refl _ _
  | settle phase kind abort fresh =>
    exact (Traced.refl _ _).append fun e new => (Cell.settlement_newborn _ e new).attempts
  | append phase abort backlog range unused reserved body =>
    exact (Traced.refl _ _).append fun e new => by rw [List.mem_singleton.mp new]
  | fail failing kept => exact failed_traced failing inv.toLogInv _
  | correct failing active phase outcomeIs path =>
    refine Traced.append ?_ fun e new => (Cell.correction_newborn _ e new).attempts
    intro e' member a' attempted
    obtain ⟨x, hx, rfl⟩ := List.mem_map.mp member
    exact failed_traced failing inv.toLogInv _ x hx a' attempted
  | claim gate time named fresh pending =>
    refine Traced.of_retouch (Cell.claimed_retouch gate) inv.toLogInv fun a' attempted => ?_
    rcases List.mem_append.mp attempted with old | new
    · exact .inl ⟨a', old, rfl, .inl⟩
    · rw [List.mem_singleton.mp new]
      exact .inr ⟨⟨_, List.mem_singleton.mpr rfl⟩, fun accepted => by simp [pending.2] at accepted⟩
  | @accept _ target attemptId member claimed =>
    refine Traced.of_retouch (Cell.accepted_retouch member) inv.toLogInv fun a' attempted => .inl ?_
    obtain ⟨a, was, rfl⟩ := List.mem_map.mp attempted
    by_cases hit : a.id = attemptId
    · exact ⟨a, was, by simp [hit], fun _ => .inr (by simp [hit])⟩
    · exact ⟨a, was, by simp [hit], fun h => .inl (by simpa [hit] using h)⟩

theorem path_traced {ls : List Label} (path : Path (Step digest) ls c c') (inv : c.Inv digest) :
    Traced ls c.rows c'.rows := by
  induction path with
  | nil s => exact .refl _ _
  | @cons l ls c c₁ c' step rest ih =>
    intro e' member a' attempted
    rcases ih (step.inv inv) e' member a' attempted with
      ⟨e₁, member₁, core, a₁, attempted₁, id, accepted⟩ | ⟨⟨now, claimed⟩, accepted⟩
    · have sequence : e₁.sequence = e'.sequence := congrArg EventCore.sequence core
      have first := step.traced inv e₁ member₁ a₁ attempted₁
      rw [sequence, id] at first
      rcases first with ⟨e, was, core₀, a, attempted₀, id₀, accepted₀⟩ | ⟨⟨now, claimed⟩, accepted₀⟩
      · refine .inl ⟨e, was, core₀.trans core, a, attempted₀, id₀, fun h => ?_⟩
        rcases accepted h with before | later
        · exact (accepted₀ before).imp_right fun here => List.mem_cons.mpr (.inl (List.mem_singleton.mp here))
        · exact .inr (List.mem_cons_of_mem _ later)
      · refine .inr ⟨⟨now, List.mem_cons.mpr (.inl (List.mem_singleton.mp claimed))⟩, fun h => ?_⟩
        rcases accepted h with before | later
        · exact List.mem_cons.mpr (.inl (List.mem_singleton.mp (accepted₀ before)))
        · exact List.mem_cons_of_mem _ later
    · exact .inr ⟨⟨now, List.mem_cons_of_mem _ claimed⟩, fun h => List.mem_cons_of_mem _ (accepted h)⟩

/-! ### One call -/

/-- An accepted receipt carries the hash of the content it acknowledges. -/
theorem Command.settle_hash (formed : cmd.WellFormed) {s : Settle} (carried : cmd.settle = some s)
    (accepted : s.accepted = true) : s.hash.isSome = true := by
  cases cmd with
  | live owner op =>
    cases op with
    | receipt sequence hash attemptId status => cases carried; rfl
    | failure sequence attemptId reason => cases carried; cases accepted
    | claim | abort => cases carried
  | delivery scope op =>
    cases op with
    | settle s' =>
      obtain rfl := Option.some.inj carried
      exact formed accepted
    | inspect | claim => cases carried
  | lookup | admitRun | advance | stop | started | producerClosed | append | pending => cases carried

/-- An acknowledgement names its row, attempt and content in the command. -/
theorem Account.accept (account : Account w cmd db c reply db' c' ls) (formed : cmd.WellFormed)
    {sequence : Nat} {id : String} (member : .accept sequence id ∈ ls) :
    ∃ s, cmd.settle = some s ∧ s.accepted = true ∧ s.sequence = sequence ∧ s.attemptId = id ∧
      ∃ e ∈ c.rows, e.sequence = sequence ∧ s.hash = some e.contentSha256 := by
  cases account with
  | quiet moves quiet none => cases quiet _ member
  | @receipt s _ _ moves carried causes none =>
    rcases causes _ member with quiet | ⟨label, accepted, e, listed, same, hash⟩
    · cases quiet
    · obtain ⟨text, given⟩ := Option.isSome_iff_exists.mp (cmd.settle_hash formed carried accepted)
      obtain ⟨rfl, rfl⟩ := Label.accept.inj label
      exact ⟨s, carried, accepted, rfl, rfl, e, listed, same, hash text given ▸ given⟩
  | claim moves quiet grants granted =>
    cases granted
    rcases List.mem_append.mp member with early | last
    · cases quiet _ early
    · cases List.mem_singleton.mp last

/-- A granted claim of `target`, in the state `c₁` that quiet steps of the call led to. -/
structure Grant (w : Worker) (claim : DeliveryClaim) (c c₁ c' : Cell) (target : EventRow) : Prop where
  before : ∃ ms, (∀ l ∈ ms, l.quiet = true) ∧ Path (Step w.digest) ms c c₁
  gate : Gate c₁ target (w.hrtime 0)
  event : claim.event = target.stored
  attemptId : claim.attemptId = w.uuid
  deadline : claim.deadlineTickMs = target.deadlineTickMs.getD (w.hrtime 0 + receiptWindowMs)
  written : ∃ revision, c' = c₁.claimed target (newAttempt w revision (w.hrtime 0))
    claim.deadlineTickMs w.clockId

theorem Grant.inv {claim : DeliveryClaim} {c₁ : Cell} {target : EventRow}
    (grant : Grant w claim c c₁ c' target) (inv : c.Inv w.digest) : c₁.Inv w.digest := by
  obtain ⟨ms, -, path⟩ := grant.before
  exact path_inv path inv

theorem Grant.runId {claim : DeliveryClaim} {c₁ : Cell} {target : EventRow}
    (grant : Grant w claim c c₁ c' target) (inv : c.Inv w.digest) :
    claim.event.runId = c.row.runId := by
  obtain ⟨ms, -, path⟩ := grant.before
  rw [grant.event, ← path_runId path]
  exact (path_inv path inv).runIds target grant.gate.member

/-- A call that grants a claim takes no other step that claims or acknowledges. -/
theorem Account.granted (account : Account w cmd db c reply db' c' ls) {claim : DeliveryClaim}
    (grants : reply.granted = some claim) :
    ∃ c₁ target, Grant w claim c c₁ c' target ∧
      ∀ l ∈ ls, l.quiet = true ∨ l = .claim target.sequence w.uuid (w.hrtime 0) := by
  cases account with
  | quiet moves quiet none | receipt moves carried causes none =>
    rw [none] at grants
    cases grants
  | @claim _ _ c₁ _ ms _ moves quiet grants' granted =>
    obtain rfl := Option.some.inj (grants'.symm.trans grants)
    cases granted with
    | @mk target revision _ gate last =>
      refine ⟨c₁, target, ⟨⟨ms, quiet, moves.path⟩, gate, rfl, rfl, rfl, revision, rfl⟩, ?_⟩
      intro l member
      exact (List.mem_append.mp member).imp (quiet l) List.mem_singleton.mp

/-- A claim label stands for the claim the reply grants. -/
theorem Account.claim_label (account : Account w cmd db c reply db' c' ls) {sequence now : Nat}
    {id : String} (member : .claim sequence id now ∈ ls) : ∃ claim, reply.granted = some claim := by
  cases account with
  | quiet moves quiet none => cases quiet _ member
  | receipt moves carried causes none =>
    rcases causes _ member with quiet | ⟨label, -⟩
    · cases quiet
    · cases label
  | claim moves quiet grants granted => exact ⟨_, grants⟩

/-! ### Whole runs -/

/-- The action grants attempt `id` of row `sequence`. -/
def Grants (r : String) (sequence : Nat) (id : String) (l : Action × Observation) : Prop :=
  ∃ call claim, committed l = some call ∧ call.reply.granted = some claim ∧
    claim.event.runId = r ∧ claim.event.sequence = sequence ∧ claim.attemptId = id

/-- The action is a committed accepted receipt of attempt `id` of row `sequence`. -/
def Acknowledges (r : String) (sequence : Nat) (id hash : String) (l : Action × Observation) : Prop :=
  ∃ call s, committed l = some call ∧ call.cmd.runId = r ∧ call.cmd.settle = some s ∧
    s.accepted = true ∧ s.sequence = sequence ∧ s.attemptId = id ∧ s.hash = some hash

/-- The attempt was granted in the trace and, if accepted, acknowledged after that. -/
def Attested (trace : List (Action × Observation)) (e : EventRow) (a : Attempt) : Prop :=
  ∃ before l after, trace = before ++ l :: after ∧ Grants e.runId e.sequence a.id l ∧
    (a.accepted = true → ∃ l' ∈ after, Acknowledges e.runId e.sequence a.id e.contentSha256 l')

theorem Attested.onward {trace : List (Action × Observation)} {e e' : EventRow} {a a' : Attempt}
    (attested : Attested trace e a) (core : e'.core = e.core) (id : a'.id = a.id)
    {l : Action × Observation} (accepted : a'.accepted = true → a.accepted = true ∨
      Acknowledges e.runId e.sequence a.id e.contentSha256 l) : Attested (trace ++ [l]) e' a' := by
  obtain ⟨before, l₀, after, rfl, grants, acknowledged⟩ := attested
  have runId : e'.runId = e.runId := congrArg EventCore.runId core
  have sequence : e'.sequence = e.sequence := congrArg EventCore.sequence core
  have hash : e'.contentSha256 = e.contentSha256 := congrArg EventCore.contentSha256 core
  refine ⟨before, l₀, after ++ [l], by simp, ?_, fun h => ?_⟩
  · rw [runId, sequence, id]
    exact grants
  · rw [runId, sequence, id, hash]
    rcases accepted h with old | here
    · obtain ⟨l', member, acknowledges⟩ := acknowledged old
      exact ⟨l', List.mem_append_left _ member, acknowledges⟩
    · exact ⟨l, by simp, here⟩

variable {trace : List (Action × Observation)} {s s' : System}

theorem System.Step.formed {l : Action × Observation} (step : System.Step digest l s s') {call : Call}
    (shown : committed l = some call) : call.cmd.WellFormed := by
  obtain ⟨action, observation⟩ := l
  have allowed := step.allowed
  cases action with
  | launch | claimStart | invoke => cases shown
  | call incarnation env cmd =>
    cases observation with
    | called outcome =>
      obtain ⟨reply, -, rfl⟩ := Option.map_eq_some_iff.mp shown
      exact allowed.2
    | opened | claimed | started | refused => cases shown

/-- One action keeps every attempt attested. -/
theorem System.Step.attested {l : Action × Observation} (step : System.Step digest l s s')
    (inv : s.db.Inv digest)
    (before : ∀ r, ∀ e ∈ s.db.outbox r, ∀ a ∈ e.attempts, Attested trace e a) :
    ∀ r, ∀ e ∈ s'.db.outbox r, ∀ a ∈ e.attempts, Attested (trace ++ [l]) e a := by
  have kept : ∀ r, ∀ e ∈ s.db.outbox r, ∀ a ∈ e.attempts, Attested (trace ++ [l]) e a :=
    fun r e member a attempted => (before r e member a attempted).onward rfl rfl .inl
  cases step.acted inv with
  | idle db => exact db ▸ kept
  | @ran call p tx shown found ran effect =>
    intro r e' member' a' attempted
    have inv' := effect.inv inv
    cases known : s'.db.runs r with
    | none =>
      rw [inv'.empty r known] at member'
      cases member'
    | some row =>
      obtain ⟨c', rfl, rfl, stored'⟩ := inv'.find known
      rw [stored'.outbox] at member'
      cases effect.origin inv stored'.toHeld with
      | admitted command reply absent cell =>
        rw [cell] at member'
        cases member'
      | fenced stale absent cell =>
        rw [cell] at member'
        cases member'
      | kept stored => exact kept _ e' (stored.outbox ▸ member') a' attempted
      | @moved c ls names stored account =>
        have runId : e'.runId = call.cmd.runId := by
          rw [stored'.inv.runIds e' member', path_runId account.moves.path, names]
        rcases path_traced account.moves.path stored.inv e' member' a' attempted with
          ⟨e, old, core, a, was, id, accepted⟩ | ⟨⟨now, claimed⟩, accepted⟩
        · refine (before _ e (stored.outbox ▸ old) a was).onward core.symm id.symm fun h => ?_
          refine (accepted h).imp_right fun label => ?_
          obtain ⟨s, carried, yes, sequence, attempt, x, listed, same, hash⟩ :=
            account.accept (step.formed shown) label
          have hit : e.sequence = e'.sequence := congrArg EventCore.sequence core
          obtain rfl := stored.inv.same_of_sequence listed old (same.trans hit.symm)
          exact ⟨call, s, shown, names.symm.trans (stored.inv.runIds x old).symm, carried, yes,
            sequence.trans hit.symm, attempt.trans id.symm, hash⟩
        · obtain ⟨claim, grants⟩ := account.claim_label claimed
          obtain ⟨c₁, target, grant, only⟩ := account.granted grants
          obtain ⟨row, attempt, -⟩ := Label.claim.inj ((only _ claimed).resolve_left Bool.false_ne_true)
          refine ⟨trace, l, [], rfl, ⟨call, claim, shown, grants, ?_, ?_, ?_⟩, fun h => ?_⟩
          · rw [grant.runId stored.inv, runId, names]
          · rw [grant.event, row]
            rfl
          · rw [grant.attemptId, attempt]
          · rcases only _ (accepted h) with quiet | same
            · cases quiet
            · cases same

theorem System.run_attested (run : System.Run digest trace .initial s) :
    ∀ r, ∀ e ∈ s.db.outbox r, ∀ a ∈ e.attempts, Attested trace e a := by
  have both := run.history (H := fun past t => t.db.Inv digest ∧
      ∀ r, ∀ e ∈ t.db.outbox r, ∀ a ∈ e.attempts, Attested past e a)
    (fun past l s t h step => ⟨step.inv h.1, step.attested h.1 h.2⟩) []
    ⟨Database.empty_inv digest, fun _ _ member => nomatch member⟩
  exact both.2

end Artoo.Journal
