import Artoo.Members.Consents
import Artoo.Members.Suspension

/-! The dispatch of a run to its node: checked, outside any transaction, against the consent the run
was created under. -/
namespace Artoo.Members
open Artoo.Lib Tx
open Artoo.Devices (Deployment)

/-- The original grant authorizes a run, not a newer one of the user. -/
def requireRunAiSharingAuthorization (policy : Option AiDataSharingPolicy) (actor : String)
    (run : RunRow) : Txn AiSharingAuthorization := do
  let configured ← configuredPolicy policy
  Tx.check (configured.mode == .external && run.requestedByUserId.all (·.isEmpty)) consentRequired
  requireAiSharingAuthorization policy (run.requestedByUserId.getD actor)
    (some ⟨run.aiDataSharingConsentId, run.aiDataSharingPolicyVersion⟩)

def notOwned : AppError := .core (.permissionDenied "run is not owned by this node")

/-- `sendRunStart` and `dispatchRunResume`: the run that a command is sent for, last of all. `outcome`
is what the other checks come to: an error, nothing to send, or the command. -/
def dispatchRun (policy : Option AiDataSharingPolicy) (actor runId : String)
    (outcome : Except AppError Bool) : Txn (Option RunRow) := do
  let found ← Tx.query (·.runs.get? runId)
  let run ← Tx.require found notOwned
  let sends ← Tx.ofResult outcome
  if sends then
    let _ ← requireRunAiSharingAuthorization policy actor run
    return some run
  else return none

/-- The run is authorized: by its own consent, if the policy asks for one. -/
def Authorized (policy : AiDataSharingPolicy) (run : RunRow) (st : Store) : Prop :=
  match policy.mode with
  | .local_ => run.aiDataSharingConsentId = none
  | .external => ∃ userId, run.requestedByUserId = some userId ∧
    ∃ grant, activeConsents userId st = [grant] ∧ run.aiDataSharingConsentId = some grant.id ∧
      grant.policyVersion = policy.version ∧ run.aiDataSharingPolicyVersion = some policy.version

section Dispatch

variable {d : Deployment} {policy : Option AiDataSharingPolicy} {w w' : Members} {userId : String}

theorem authorize_local {configured : AiDataSharingPolicy} (mode : configured.mode = .local_)
    {grant : Option ConsentRow} {consentId version : Option String} {auth : AiSharingAuthorization}
    (is : authorize configured grant (some ⟨consentId, version⟩) = .ok auth) : consentId = none := by
  unfold authorize at is
  rw [mode] at is
  dsimp only at is
  split at is
  · cases is
  · rename_i passes
    simp at passes
    exact passes.1

theorem authorize_external {configured : AiDataSharingPolicy} (mode : configured.mode = .external)
    {grant : Option ConsentRow} {consentId version : Option String} {auth : AiSharingAuthorization}
    (is : authorize configured grant (some ⟨consentId, version⟩) = .ok auth) :
    ∃ row, grant = some row ∧ row.policyVersion = configured.version ∧ consentId = some row.id ∧
      version = some configured.version := by
  unfold authorize at is
  rw [mode] at is
  dsimp only at is
  split at is
  · cases is
  · rename_i row
    split at is
    · cases is
    · rename_i current
      split at is
      · cases is
      · rename_i same
        simp at current same
        exact ⟨row, rfl, current, same.1, same.2⟩

/-- The last read of the check is of the consents. -/
theorem beside_authorization {expected : AiSharingAuthorization} {auth : AiSharingAuthorization}
    (h : (requireAiSharingAuthorization policy userId (some expected)).Beside (Step d) (·.db) w auth
      w') : ∃ configured, policy = some configured ∧ ∃ checked, Leads (Step d) w checked ∧
        Leads (Step d) checked w' ∧ ∃ grant, authorize configured grant (some expected) = .ok auth ∧
          (configured.mode = .external → grant = (activeConsents userId checked.db).head?) := by
  unfold requireAiSharingAuthorization at h
  obtain ⟨configured, w₁, first, h⟩ := h.bind
  have is := first.require
  obtain ⟨_, w₂, second, h⟩ := h.bind
  have before := first.leads.trans second.leads
  refine ⟨configured, is, ?_⟩
  cases mode : configured.mode with
  | local_ =>
    rw [mode] at h
    obtain ⟨grant, w₃, third, h⟩ := Beside.bind (p := pure none) h
    exact ⟨w₃, before.trans third.leads, h.leads, grant, h.ofResult, nofun⟩
  | external =>
    rw [mode] at h
    obtain ⟨grant, w₃, third, h⟩ := Beside.bind (p := activeGrant userId) h
    obtain ⟨checked, reached, read, after⟩ := third.query
    exact ⟨checked, before.trans reached, after.trans h.leads, grant, h.ofResult, fun _ => read⟩

theorem head?_activeConsents {st : Store} (one : OneGrant st) {row : ConsentRow}
    (first : (activeConsents userId st).head? = some row) : activeConsents userId st = [row] := by
  have apart : ((activeConsents userId st).map ConsentRow.id).Nodup := Table.nodup_select
  cases rows : activeConsents userId st with
  | nil =>
    rw [rows] at first
    cases first
  | cons head rest =>
    rw [rows] at first
    cases first
    cases rest with
    | nil => rfl
    | cons other rest =>
      have same := one userId row (rows ▸ List.mem_cons_self) other
        (rows ▸ List.mem_cons_of_mem _ List.mem_cons_self)
      rw [rows, same] at apart
      simp at apart

/-- The check of a run: it holds at a state reached while the check goes on. -/
theorem beside_runAuthorization {st : Store} (one : OneGrant st)
    (start : Leads (Step d) (World.quiet st) w) {actor : String} {run : RunRow}
    {auth : AiSharingAuthorization}
    (h : (requireRunAiSharingAuthorization policy actor run).Beside (Step d) (·.db) w auth w') :
    ∃ configured checked, policy = some configured ∧ Leads (Step d) w checked ∧
      Leads (Step d) checked w' ∧ Authorized configured run checked.db := by
  unfold requireRunAiSharingAuthorization at h
  obtain ⟨configured, w₁, first, h⟩ := h.bind
  have is := first.require
  obtain ⟨_, w₂, second, h⟩ := h.bind
  have named := second.check
  have before := first.leads.trans second.leads
  obtain ⟨configured', is', checked, reached, after, grant, allowed, read⟩ := beside_authorization h
  cases is.symm.trans is'
  have toChecked := before.trans reached
  refine ⟨configured, checked, is, toChecked, after, ?_⟩
  unfold Authorized
  cases mode : configured.mode with
  | local_ => exact authorize_local mode allowed
  | external =>
    obtain ⟨row, found, version, consent, recorded⟩ := authorize_external mode allowed
    cases requested : run.requestedByUserId with
    | none =>
      rw [mode, requested] at named
      cases named
    | some userId =>
      rw [requested] at read
      have first := (read mode).symm.trans found
      have single := head?_activeConsents (consents_lead one (start.trans toChecked)).1 first
      exact ⟨userId, rfl, row, single, consent, version, recorded⟩

end Dispatch

/-- A member has one active consent at most. A run that is dispatched is, as created, authorized at
its check: under an external policy, by its own consent, which is the active one of its requester
and of the current policy version. What was revoked before never authorizes it. -/
theorem consent_binding (d : Deployment) {st : Store} (one : OneGrant st) {created w w' : Members}
    (start : Leads (Step d) (World.quiet st) created) (later : Leads (Step d) created w)
    {policy : Option AiDataSharingPolicy} {actor runId : String} {outcome : Except AppError Bool}
    {run sent : RunRow} (recorded : created.db.runs.get? runId = some run)
    (dispatched : (dispatchRun policy actor runId outcome).Beside (Step d) (·.db) w (some sent) w') :
    OneGrant w'.db ∧ sent = run ∧
      (∃ configured checked, policy = some configured ∧ Leads (Step d) w checked ∧
        Leads (Step d) checked w' ∧ Authorized configured run checked.db) ∧
      ∀ id row, w.db.consents.get? id = some row → row.revokedAt.isSome →
        run.aiDataSharingConsentId ≠ some id := by
  have reached := start.trans later
  unfold dispatchRun at dispatched
  obtain ⟨found, w₁, first, rest⟩ := dispatched.bind
  obtain ⟨seen, before, read, after⟩ := first.query
  obtain ⟨loaded, w₂, second, rest⟩ := rest.bind
  have is := second.require
  obtain ⟨sends, w₃, third, rest⟩ := rest.bind
  have kept := ((consents_lead one start).2 seen (later.trans before)).2 runId run recorded
  cases (read.symm.trans is).symm.trans kept
  have toCheck := first.leads.trans (second.leads.trans third.leads)
  cases sends with
  | false => exact nomatch rest.1
  | true =>
    rw [if_pos rfl] at rest
    obtain ⟨auth, w₄, check, rest⟩ := rest.bind
    cases rest.1
    obtain ⟨configured, checked, configures, toChecked, after, authorized⟩ :=
      beside_runAuthorization one (reached.trans toCheck) check
    have fromStart := toCheck.trans toChecked
    have toEnd := after.trans rest.2
    refine ⟨(consents_lead one (reached.trans (fromStart.trans toEnd))).1, rfl,
      ⟨configured, checked, configures, fromStart, toEnd, authorized⟩, ?_⟩
    intro id row there revoked consent
    unfold Authorized at authorized
    cases mode : configured.mode with
    | local_ =>
      rw [mode] at authorized
      exact nomatch consent.symm.trans authorized
    | external =>
      rw [mode] at authorized
      obtain ⟨userId, _, grant, active, own, _⟩ := authorized
      cases own.symm.trans consent
      obtain ⟨row', now_, kept⟩ := ((consents_lead one reached).2 checked fromStart).1 _ row there
      obtain ⟨there', _, unrevoked⟩ := mem_activeConsents.mp (active ▸ List.mem_cons_self)
      cases now_.symm.trans there'
      have still := kept.revoked revoked
      rw [unrevoked] at still
      cases still

/-! ## A withdrawal after the check -/

theorem reads_dispatchRun {policy : Option AiDataSharingPolicy} {actor runId : String}
    {outcome : Except AppError Bool} : Reads (dispatchRun policy actor runId outcome) := by
  unfold dispatchRun
  apply writes_bind writes_query
  intro found
  apply writes_bind writes_require
  intro run
  apply writes_bind writes_ofResult
  intro sends
  cases sends with
  | false => exact writes_done
  | true =>
    refine writes_bind ?_ fun _ => writes_done
    unfold requireRunAiSharingAuthorization
    apply writes_bind writes_require
    intro configured
    exact writes_bind writes_check fun _ => reads_requireAiSharingAuthorization

namespace Sample

/-- The member allows the sharing, and requests a run. -/
def requests : List (Nat × Act Call Devices.Draw) :=
  (2, .begin (.grantConsent policy "user_2" "2026-05")) :: grants ++
    (3, .begin (.assignTask policy "user_2" none none)) :: List.replicate 3 (3, .statement) ++
      [(3, .draw { text := "run_1" }), (3, .statement), (3, .commit)]

def withdraws : List (Nat × Act Call Devices.Draw) :=
  [(4, .begin (.revokeConsent "user_2")), (4, .statement), (4, .draw { instant := 4000 }),
   (4, .statement), (4, .commit)]

def localPolicy : AiDataSharingPolicy := ⟨"2026-05", .local_⟩

def requestsLocally : List (Nat × Act Call Devices.Draw) :=
  (3, .begin (.assignTask localPolicy "user_2" none none)) :: List.replicate 2 (3, .statement) ++
    [(3, .draw { text := "run_1" }), (3, .statement), (3, .commit)]

def bound : RunRow := ⟨"run_1", some "user_2", some "consent_1", some "2026-05"⟩

def unbound : RunRow := ⟨"run_1", some "user_2", none, some "2026-05"⟩

/-- What a dispatch sends if nothing is committed meanwhile. -/
def sends (configured : AiDataSharingPolicy) (w : Members) : Option RunRow :=
  match run (fun _ => {}) (dispatchRun configured "user_1" "run_1" (.ok true)) 0 w.db with
  | .ok (sent, _, _) => sent
  | .error _ => none

end Sample

open Sample

theorem oneGrant_team : OneGrant team :=
  fun _ _ member => nomatch (mem_activeConsents.mp member).1

theorem beside_of_sends {configured : AiDataSharingPolicy} {w w' : Members} {row : RunRow}
    (is : sends configured w = some row) (later : Leads (Step artoo) w w') :
    (dispatchRun configured "user_1" "run_1" (.ok true)).Beside (Step artoo) (·.db) w (some row)
      w' := by
  unfold sends at is
  split at is
  · rename_i sent end_ m ran
    subst is
    exact reads_dispatchRun.beside ran later
  · cases is

theorem consent_binding_run : ∃ w w' : Members, OneGrant w'.db ∧
    (∃ configured checked, some policy = some configured ∧ Leads (Step artoo) w checked ∧
      Leads (Step artoo) checked w' ∧ Authorized configured bound checked.db) := by
  have runs : (Modes.exec (fun label : Call => label.program artoo) (fun _ _ _ => True) requests
      (World.quiet team : Members)).map (fun w => (w.db.runs.get? "run_1", sends policy w)) =
        some (some bound, some bound) := by
    decide +kernel
  obtain ⟨w, found, is⟩ := Option.map_eq_some_iff.mp runs
  obtain ⟨recorded, sent⟩ := Prod.mk.inj is
  have start : Leads (Step artoo) (World.quiet team) w := ⟨_, Modes.exec_path found⟩
  obtain ⟨one, _, authorized, _⟩ := consent_binding artoo oneGrant_team start (.refl w) recorded
    (beside_of_sends sent (.refl w))
  exact ⟨w, w, one, authorized⟩

/-- A dispatch whose consent is withdrawn after its check, and one under a local policy, whose run has
no consent. -/
theorem dispatched_without_grant :
    (∃ w w' : Members, Leads (Step artoo) (World.quiet team) w ∧ Leads (Step artoo) w w' ∧
      (dispatchRun policy "user_1" "run_1" (.ok true)).Beside (Step artoo) (·.db) w (some bound) w' ∧
        activeConsents "user_2" w'.db = []) ∧
    ∃ w : Members, Leads (Step artoo) (World.quiet team) w ∧
      (dispatchRun localPolicy "user_1" "run_1" (.ok true)).Beside (Step artoo) (·.db) w
        (some unbound) w ∧ unbound.aiDataSharingConsentId = none := by
  constructor
  · have runs : ((Modes.exec (fun label : Call => label.program artoo) (fun _ _ _ => True) requests
        (World.quiet team : Members)).bind fun w =>
          (Modes.exec (fun label : Call => label.program artoo) (fun _ _ _ => True) withdraws w).map
            fun w' => (sends policy w, activeConsents "user_2" w'.db)) = some (some bound, []) := by
      decide +kernel
    obtain ⟨w, found, rest⟩ := Option.bind_eq_some_iff.mp runs
    obtain ⟨w', after, is⟩ := Option.map_eq_some_iff.mp rest
    obtain ⟨sent, none_⟩ := Prod.mk.inj is
    have later : Leads (Step artoo) w w' := ⟨_, Modes.exec_path after⟩
    exact ⟨w, w', ⟨_, Modes.exec_path found⟩, later, beside_of_sends sent later, none_⟩
  · have runs : (Modes.exec (fun label : Call => label.program artoo) (fun _ _ _ => True)
        requestsLocally (World.quiet team : Members)).map (sends localPolicy) =
          some (some unbound) := by
      decide +kernel
    obtain ⟨w, found, sent⟩ := Option.map_eq_some_iff.mp runs
    exact ⟨w, ⟨_, Modes.exec_path found⟩, beside_of_sends sent (.refl w), rfl⟩

end Artoo.Members
