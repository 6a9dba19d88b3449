import Artoo.Members.Sweep

/-! Suspension is complete: whatever runs concurrently, a suspended member has no access left,
unless a grant of a consent commits meanwhile. -/
namespace Artoo.Members
open Artoo.Lib Tx
open Artoo.Devices (Deployment DevicePlatform ClaimPairingInput PairingCodeRow)

/-- The member a call grants a consent to. -/
def Call.grants : Call → Option String
  | .grantConsent _ actor _ => some actor
  | _ => none

/-- A call is about one member. Where it leaves the member suspended, it has taken all access, or
the member was suspended before and is given none, a grant apart. -/
def Call.Effect (label : Call) (s : Standing) : Prop :=
  ∃ userId, About userId s ∧ (suspended s.view userId = true → Clean s.view userId ∨
    suspended s.db userId = true ∧
      ((∀ w ∈ s.log, ∀ row, w.row = some row → ¬ row.Fresh) ∨ label.grants = some userId))

section Calls

variable {α : Type} {d : Deployment} {userId : String} {label : Call} {s : Standing}
  {post : α → Standing → Prop}

theorem Entering.effect (h : Entering userId s) : label.Effect s :=
  ⟨userId, h.about, fun is => absurd (h.active_view.symm.trans is) Bool.false_ne_true⟩

theorem Sweeping.effect {ids : List String} {kinds : List Kind} (h : Sweeping userId ids kinds s)
    (all : ∀ kind, kind ∈ kinds) : label.Effect s :=
  ⟨userId, h.about, fun _ => Or.inl (h.clean all)⟩

theorem under_generate {k : String → Txn α} (h : ∀ text, under memberRely (k text) post s) :
    under memberRely (generate >>= k) post s := fun i => h i.text

theorem under_nowIso {k : Int → Txn α} (h : ∀ now, under memberRely (k now) post s) :
    under memberRely (nowIso >>= k) post s := fun i => h i.instant

/-- The check of a member's standing, under the shared lock of the member's row. -/
theorem under_isActiveMember (log : s.log = []) :
    under memberRely (isActiveMember userId)
      (fun active s' => s'.log = [] ∧ (active = true → Entering userId s')) s := by
  unfold isActiveMember shareUser
  rw [under_queryForUpdate]
  intro db step
  cases found : ((s.at_ db).view.core.users.get? userId) with
  | none =>
    intro db' step'
    exact ⟨log, nofun⟩
  | some row =>
    have key : row.id = userId := Table.key_of_get? found
    unfold isMemberSuspended
    change under memberRely (query (suspended · userId) >>= fun is => pure !is) _ _
    rw [under_query]
    intro db' step' db'' step''
    refine ⟨log, fun active => ?_⟩
    have active' : suspended db' userId = false := by
      unfold Progress.view at active
      simpa [log] using active
    have entering : Entering userId
        ⟨db', s.locks ++ [row].map fun row => Lock.shareUser row.id, s.log⟩ :=
      entering_start (s := ⟨db', _, _⟩) log (Or.inl (by simp [key])) active'
    exact entering.later step''

theorem under_requireActiveMember {k : Unit → Txn α} (log : s.log = [])
    (rest : ∀ s', s'.log = [] → Entering userId s' → under memberRely (k ()) post s') :
    under memberRely (requireActiveMember userId >>= k) post s := by
  unfold requireActiveMember
  rw [bind_assoc]
  apply under_seq (under_isActiveMember log)
  rintro active s' ⟨log', entering⟩
  rw [under_check]
  intro passes
  rw [Bool.not_eq_false'] at passes
  exact rest s' log' (entering passes)

/-! ## Calls that give nothing -/

/-- A write that gives no access and suspends nobody. -/
def Write.Quiet (w : Write) : Prop :=
  (∀ row, w.row = some row → ¬ row.Fresh) ∧ ∀ row, w ≠ .core (.suspension row)

theorem effect_quiet (quiet : ∀ w ∈ s.log, w.Quiet) : label.Effect s := by
  refine ⟨"", ⟨?_, ?_, ?_⟩, fun is => Or.inr ⟨?_, Or.inl fun w member => (quiet w member).1⟩⟩
  · exact fun w member row is fresh => ((quiet w member).1 row is fresh).elim
  · exact fun row member => ((quiet _ member).1 (.device row) rfl trivial).elim
  · exact fun row member => ((quiet _ member).2 row rfl).elim
  · have same : s.view.core.suspensions.get? "" = s.db.core.suspensions.get? "" :=
      unwritten_suspension fun row member => ((quiet _ member).2 row rfl).elim
    unfold suspended at is ⊢
    rwa [same] at is

/-- A program of quiet writes, after quiet writes. -/
theorem under_quiet {p : Txn α} (h : Writes (fun _ w => Write.Quiet w) p)
    (quiet : ∀ w ∈ s.log, w.Quiet) : under memberRely p (fun _ s' => label.Effect s') s := by
  have kept : under memberRely p (fun _ s' => ∀ w ∈ s'.log, w.Quiet) s := by
    apply Writes.under h _ _ quiet
    · exact fun _ _ quiet _ => quiet
    · intro s locks writes quiet wrote w member
      rcases List.mem_append.mp member with old | new
      · exact quiet w old
      · exact wrote w new
  exact under_mono kept fun _ _ => effect_quiet

theorem writes_revokeConsents {now : Int} :
    Writes (fun _ w => Write.Quiet w) (revokeConsents userId now) := by
  apply writes_change
  intro view row _
  constructor
  · intro row' is fresh
    cases is
    cases fresh
  · exact fun _ is => nomatch is

/-- A run gives no access. -/
theorem writes_assignTask {policy : Option AiDataSharingPolicy} {actor : String}
    {turn : Option AiSharingAuthorization} {refused : Option AppError} :
    Writes (fun _ w => Write.Quiet w) (assignTask policy actor turn refused) := by
  unfold assignTask
  apply writes_bind reads_requireAiSharingAuthorization.writes
  intro sharing
  have rest : ∀ (admitted : Except AppError Unit) (sharing : AiSharingAuthorization),
      Writes (fun _ w => Write.Quiet w) (do
      Tx.ofResult admitted
      let id ← generate
      let row : RunRow :=
        { id, requestedByUserId := actor, aiDataSharingConsentId := sharing.consentId
          aiDataSharingPolicyVersion := sharing.policyVersion }
      Tx.add (fun st => (st.runs.get? id).isSome) (.run row) (.core .constraint)
      return row) := by
    intro admitted sharing
    apply writes_bind writes_ofResult
    intro _
    refine writes_bind (fun _ => trivial) fun id => ?_
    refine writes_bind (writes_add fun _ _ => ⟨?_, ?_⟩) fun _ => writes_done
    · exact fun _ is => nomatch is
    · exact fun _ is => nomatch is
  cases turn with
  | none => exact rest _ sharing
  | some turn => exact writes_bind reads_requireAiSharingAuthorization.writes (rest _)

theorem writes_revokeAiDataSharingConsent {actor : String} :
    Writes (fun _ w => Write.Quiet w) (revokeAiDataSharingConsent actor) := by
  unfold revokeAiDataSharingConsent
  apply writes_bind writes_queryForUpdate
  intro rows
  apply writes_bind writes_check
  intro _
  exact writes_bind (fun _ => trivial) fun now => writes_bind writes_revokeConsents fun _ => writes_done

/-! ## Calls that give access -/

/-- A row more. -/
theorem Entering.under_add (h : Entering userId s) {taken : Store → Bool} {w : Write} {e : AppError}
    {k : Unit → Txn α}
    (own : ∀ row, w.row = some row → row.Fresh → row.For userId (s.log ++ [w]))
    (device : ∀ row st, w = .core (.device row) → taken (s.at_ st).view = false →
      ∀ other, ¬ OwnsDevice st other row.id)
    (none_ : ∀ row, w ≠ .core (.suspension row))
    (rest : ∀ s', Entering userId s' → s'.log = s.log ++ [w] → under memberRely (k ()) post s') :
    under memberRely (add taken w e >>= k) post s := by
  rw [Tx.under_add]
  intro db step free
  refine rest _ ((h.later step).after ?_ ?_ ?_) rfl
  · intro x member row is
    rw [List.mem_singleton.mp member] at is
    exact own row is
  · intro row member
    have same := (List.mem_singleton.mp member).symm
    subst same
    exact ⟨List.mem_singleton.mpr rfl, fun other owns => (device row db rfl free other owns).elim⟩
  · intro row member
    exact none_ row (List.mem_singleton.mp member).symm

theorem Entering.finish (h : Entering userId s) {a : α} :
    under memberRely (pure a : Txn α) (fun _ s' => label.Effect s') s :=
  fun _ step => (h.later step).effect

theorem under_createSession {ttlMs : Int} (log : s.log = []) :
    under memberRely (createSession d ttlMs userId) (fun _ s' => label.Effect s') s := by
  unfold createSession
  apply under_generate
  intro lookup
  apply under_generate
  intro secret
  apply under_generate
  intro id
  apply under_nowIso
  intro now
  apply under_requireActiveMember log
  intro s' _ entering
  apply entering.under_add
  · intro row is _
    cases is
    rfl
  · exact fun _ _ is => nomatch is
  · exact fun _ is => nomatch is
  · exact fun _ wrote _ => wrote.finish

theorem under_createPairing {actor : String} {platform : Option DevicePlatform} (log : s.log = []) :
    under memberRely (createPairing d actor userId platform) (fun _ s' => label.Effect s') s := by
  unfold createPairing
  rw [under_query]
  intro db step
  rw [under_check]
  intro _
  apply under_generate
  intro code
  apply under_nowIso
  intro now
  apply under_generate
  intro id
  extract_lets row
  apply under_requireActiveMember (s := s.at_ db) log
  intro s' _ entering
  apply entering.under_add
  · intro row is _
    cases is
    rfl
  · exact fun _ _ is => nomatch is
  · exact fun _ is => nomatch is
  · exact fun _ wrote _ => wrote.finish

theorem under_deviceToken {k : Devices.GeneratedDeviceToken → Txn α}
    (h : ∀ token, under memberRely (k token) post s) :
    under memberRely (core d.generateDeviceToken >>= k) post s := fun _ _ => h _

theorem under_tokenRow {deviceId : String} {kind : Devices.DeviceTokenKind}
    {token : Devices.GeneratedDeviceToken} {now : Int} {k : Devices.DeviceTokenRow → Txn α}
    (h : ∀ id, under memberRely (k (d.tokenRow id deviceId kind token now)) post s) :
    under memberRely (core (d.buildTokenRow deviceId kind token now) >>= k) post s := fun _ => h _

/-- The token of a device that the transaction writes. -/
theorem Entering.under_insertToken (h : Entering userId s) {row : Devices.DeviceTokenRow}
    {device : Devices.DeviceRow} (written : .core (.device device) ∈ s.log)
    (same : device.id = row.deviceId) {k : Unit → Txn α}
    (rest : ∀ s', Entering userId s' → s'.log = s.log ++ [.core (.token row)] →
      under memberRely (k ()) post s') : under memberRely (insertToken row >>= k) post s := by
  apply h.under_add _ _ _ rest
  · intro row' is _
    cases is
    exact ⟨device, List.mem_append_left _ written, same⟩
  · exact fun _ _ is => nomatch is
  · exact fun _ is => nomatch is

/-- A code that is not pending any more. -/
theorem Entering.under_updatePending (h : Entering userId s) {id : String}
    {set : PairingCodeRow → PairingCodeRow} (stale : ∀ row, (set row).status ≠ .pending)
    {k : List PairingCodeRow → Txn α}
    (rest : ∀ s' rows, Entering userId s' → s.log ⊆ s'.log → under memberRely (k rows) post s') :
    under memberRely (updatePending id set >>= k) post s := by
  unfold updatePending
  rw [under_change]
  intro db step
  refine rest _ _ ((h.later step).after ?_ ?_ ?_) (List.subset_append_left _ _)
  · intro w member row is fresh
    obtain ⟨code, _, rfl⟩ := List.mem_map.mp member
    cases is
    exact absurd fresh (stale code)
  · intro row member
    obtain ⟨code, _, is⟩ := List.mem_map.mp member
    cases is
  · intro row member
    obtain ⟨code, _, is⟩ := List.mem_map.mp member
    cases is

theorem under_claimInTx {input : ClaimPairingInput} {existing : PairingCodeRow} {now : Int}
    (log : s.log = []) :
    under memberRely (claimInTx d input existing now) (fun _ s' => label.Effect s') s := by
  unfold claimInTx
  apply under_seq (under_isActiveMember log)
  rintro active s₁ ⟨log₁, entering⟩
  rw [under_check]
  intro passes
  rw [Bool.not_eq_false'] at passes
  apply under_generate
  intro id
  extract_lets device
  apply (entering passes).under_add
  · intro row is _
    cases is
    rfl
  · rintro row st is free other ⟨row', there, _⟩
    cases is
    obtain ⟨found, there, _⟩ := Option.map_eq_some_iff.mp there
    change st.core.devices.get? id = some found at there
    have absent : (s₁.at_ st).view = st := by simp [Progress.view, log₁]
    rw [absent, there] at free
    cases free
  · exact fun _ is => nomatch is
  intro s₂ entering₂ log₂
  have written₂ : .core (.device device) ∈ s₂.log := by simp [log₂]
  apply entering₂.under_updatePending
  · exact fun row is => nomatch is
  intro s₃ rows entering₃ sub
  rw [under_check]
  intro _
  apply under_deviceToken
  intro control
  apply under_deviceToken
  intro node
  apply under_tokenRow
  intro controlId
  apply under_tokenRow
  intro nodeId
  apply entering₃.under_insertToken (sub written₂) rfl
  intro s₄ entering₄ log₄
  apply entering₄.under_insertToken (log₄ ▸ List.mem_append_left _ (sub written₂)) rfl
  exact fun s₅ entering₅ _ => entering₅.finish

/-- A claim that finds its code expired only marks it. -/
theorem under_claimPairing {input : ClaimPairingInput} (log : s.log = []) :
    under memberRely (claimPairing d input) (fun _ s' => label.Effect s') s := by
  unfold claimPairing
  rw [under_check]
  intro _
  apply under_nowIso
  intro now
  extract_lets hash
  rw [under_query]
  intro db step
  apply under_generate
  intro choice
  rw [under_require]
  intro existing _
  rw [under_check]
  intro _
  split
  · apply under_quiet
    · apply writes_bind
      · apply writes_change
        intro _ row _
        refine ⟨fun row' is => ?_, fun _ is => nomatch is⟩
        cases is
        exact fun fresh => nomatch fresh
      · exact fun _ => writes_done
    · exact log ▸ List.forall_mem_nil _
  · rw [under_check]
    intro _
    exact under_claimInTx log

/-! ## Calls under the exclusive lock -/

theorem under_lockUser {k : List Devices.UserRow → Txn α}
    (rest : ∀ s' rows, s'.log = s.log → (rows ≠ [] → .core (.user userId) ∈ s'.locks) →
      under memberRely (k rows) post s') : under memberRely (lockUser userId >>= k) post s := by
  unfold lockUser
  rw [under_queryForUpdate]
  intro db step
  refine rest _ _ rfl fun found => ?_
  cases is : (s.at_ db).view.core.users.get? userId with
  | none => simp [is] at found
  | some row =>
    have key : row.id = userId := Table.key_of_get? is
    simp [key]

/-- A grant writes quietly but for the consents of its actor. -/
theorem grant_effect {actor : String} (grants : label.grants = some actor)
    (locked : .core (.user actor) ∈ s.locks)
    (log : ∀ w ∈ s.log, w.Quiet ∨ ∃ row, w = .consent row ∧ row.userId = actor) :
    label.Effect s := by
  have none_ : ∀ row, .core (.suspension row) ∉ s.log := by
    intro row member
    rcases log _ member with quiet | ⟨_, is, _⟩
    · exact quiet.2 row rfl
    · cases is
  refine ⟨actor, ⟨?_, ?_, ?_⟩, fun is => Or.inr ⟨?_, Or.inr grants⟩⟩
  · intro w member row is fresh
    rcases log w member with quiet | ⟨consent, rfl, own⟩
    · exact (quiet.1 row is fresh).elim
    · cases is
      exact ⟨own, Or.inr locked⟩
  · intro row member
    rcases log _ member with quiet | ⟨_, is, _⟩
    · exact (quiet.1 (.device row) rfl trivial).elim
    · cases is
  · exact fun row member => (none_ row member).elim
  · have same : s.view.core.suspensions.get? actor = s.db.core.suspensions.get? actor :=
      unwritten_suspension fun row member => (none_ row member).elim
    unfold suspended at is ⊢
    rwa [same] at is

theorem writes_replaceGrant {policy : AiDataSharingPolicy} {actor : String} :
    Writes (fun _ w => Write.Quiet w ∨ ∃ row, w = .consent row ∧ row.userId = actor)
      (replaceGrant policy actor) := by
  unfold replaceGrant
  refine writes_bind (fun _ => trivial) fun now => ?_
  apply writes_bind (Writes.mono writes_revokeConsents fun _ _ => Or.inl)
  intro _
  refine writes_bind (fun _ => trivial) fun id => ?_
  apply writes_add
  exact fun _ _ => Or.inr ⟨_, rfl, rfl⟩

theorem under_grant {policy : Option AiDataSharingPolicy} {actor version : String}
    (grants : label.grants = some actor) (log : s.log = []) :
    under memberRely (grantAiDataSharingConsent policy actor version)
      (fun _ s' => label.Effect s') s := by
  unfold grantAiDataSharingConsent configuredPolicy
  rw [under_require]
  intro policy _
  rw [under_check]
  intro _
  rw [under_check]
  intro _
  apply under_lockUser
  intro s₁ rows log₁ locked
  rw [under_check]
  intro present
  have held := locked (by simpa using present)
  unfold activeGrant
  rw [under_query]
  intro db step
  have none_ : s₁.log = [] := log₁.trans log
  split
  · exact fun db' step' => effect_quiet (s := s₁.at_ db') (none_ ▸ List.forall_mem_nil _)
  · have kept : under memberRely (replaceGrant policy actor) (fun _ s' =>
        .core (.user actor) ∈ s'.locks ∧
          ∀ w ∈ s'.log, w.Quiet ∨ ∃ row, w = .consent row ∧ row.userId = actor) (s₁.at_ db) := by
      apply Writes.under writes_replaceGrant
      · exact fun _ _ kept _ => kept
      · rintro s locks writes ⟨held, log⟩ wrote
        refine ⟨List.mem_append_left _ held, fun w member => ?_⟩
        rcases List.mem_append.mp member with old | new
        · exact log w old
        · exact wrote w new
      · exact ⟨held, none_ ▸ List.forall_mem_nil _⟩
    exact under_mono kept fun _ _ both => grant_effect grants both.1 both.2

theorem under_reinstateMember {now : Int} (held : .core (.user userId) ∈ s.locks)
    (log : s.log = []) :
    under memberRely (reinstateMember userId now) (fun _ s' => label.Effect s') s := by
  unfold reinstateMember
  rw [under_change]
  intro db step db' step'
  have view : (s.at_ db).view = db := by simp [Progress.view, log]
  rw [view, log, List.nil_append]
  cases found : db.core.suspensions.get? userId with
  | none => exact effect_quiet (s := ⟨db', _, []⟩) (List.forall_mem_nil _)
  | some row =>
    have key : row.userId = userId := Table.key_of_get? found
    refine ⟨userId, ⟨?_, ?_, ?_⟩, fun is => ?_⟩
    · intro w member row' is
      rw [List.mem_singleton.mp member] at is
      cases is
    · exact fun row' member => nomatch List.mem_singleton.mp member
    · intro row' member
      cases List.mem_singleton.mp member
      exact ⟨key, List.mem_append_left _ held⟩
    · unfold suspended at is
      change Option.any _ (Table.get? (db'.core.suspensions.put _) userId) = true at is
      rw [Table.get?_put, if_pos key] at is
      cases is

/-! ## The sweep -/

section Sweep

variable {ids : List String} {kinds : List Kind} {now : Int}

theorem Sweeping.seen (h : Sweeping userId ids kinds s) {kind : Kind} (left : kind ∉ kinds)
    {id : String} (active : Active s.db userId kind id) :
    ∃ row, s.view.row kind id = some row ∧ row.Gives s.db userId := by
  obtain ⟨row, there, gives⟩ := active
  exact ⟨row, (h.row_view left id).trans there, gives⟩

theorem Sweeping.under_change (h : Sweeping userId ids kinds s) (kind : Kind) {β : Type}
    {matching : Store → List β} {set : β → Write} {k : List β → Txn α}
    (covers : ∀ s', Sweeping userId ids kinds s' → ∀ id, Active s'.db userId kind id →
      ∃ a ∈ matching s'.view, ∃ row, (set a).row = some row ∧ row.item = (kind, id))
    (rows : ∀ s', Sweeping userId ids kinds s' → ∀ a ∈ matching s'.view,
      ∃ row, (set a).row = some row ∧ row.item.1 = kind ∧
        row.Swept userId ids (Tables.guards Store (set a)))
    (rest : ∀ s' found, Sweeping userId ids (kind :: kinds) s' → under memberRely (k found) post s') :
    under memberRely (change matching set >>= k) post s := by
  rw [Tx.under_change]
  intro db step
  have here := h.later step
  exact rest _ _ (here.sweep kind (covers _ here) (rows _ here))

theorem Sweeping.under_devices (h : Sweeping userId ids [] s) {k : List Devices.DeviceRow → Txn α}
    (rest : ∀ s' found, Sweeping userId ids [.device] s' → under memberRely (k found) post s') :
    under memberRely (change
      (fun st => st.core.devices.select fun row => ids.contains row.id)
      (fun row => .core (.device (row.revoke now))) >>= k) post s := by
  apply h.under_change .device _ _ rest
  · intro s' here id active
    have owns : OwnsDevice s'.db userId id := by
      obtain ⟨row, there, gives⟩ := active
      obtain ⟨device, _, rfl⟩ := Option.map_eq_some_iff.mp there
      exact ⟨device, there, gives.1⟩
    obtain ⟨row, there, _⟩ := here.seen List.not_mem_nil active
    obtain ⟨device, found, rfl⟩ := Option.map_eq_some_iff.mp there
    have key : device.id = id := Table.key_of_get? found
    refine ⟨device, Table.mem_select.mpr ⟨Table.mem_of_get? found, ?_⟩, _, rfl, Prod.ext rfl key⟩
    exact List.contains_iff_mem.mpr (key ▸ (here.owned id).mp owns)
  · intro s' here device member
    obtain ⟨there, listed⟩ := Table.mem_select.mp member
    rw [List.contains_iff_mem] at listed
    refine ⟨_, rfl, rfl, fun _ => ⟨_, rfl, rfl, ?_, listed, List.mem_singleton.mpr rfl⟩⟩
    obtain ⟨row, old, mine⟩ := (here.owned device.id).mpr listed
    rw [← here.row_view List.not_mem_nil] at old
    obtain ⟨row', found, is⟩ := Option.map_eq_some_iff.mp old
    rw [Table.get?_of_mem there] at found
    cases found
    cases is
    exact mine

/-- A table whose rows, once updated, give no access. -/
theorem Sweeping.under_table (h : Sweeping userId ids kinds s) (kind : Kind) (left : kind ∉ kinds)
    {ρ : Type} {key : ρ → String} (get : Store → Table key) (wrap : ρ → Row) (f : ρ → ρ)
    {set : ρ → Write} {wanted : ρ → Bool} {k : List ρ → Txn α}
    (table : ∀ st id, st.row kind id = ((get st).get? id).map wrap)
    (wrote : ∀ r, (set r).row = some (wrap (f r)) ∧ (wrap (f r)).item = (kind, key r))
    (stale : ∀ r, ¬ (wrap (f r)).Fresh)
    (covers : ∀ st r, (∀ id, OwnsDevice st userId id → id ∈ ids) → (wrap r).Gives st userId →
      wanted r = true)
    (rest : ∀ s' found, Sweeping userId ids (kind :: kinds) s' → under memberRely (k found) post s') :
    under memberRely (change (fun st => (get st).select wanted) set >>= k) post s := by
  apply h.under_change kind _ _ rest
  · intro s' here id active
    obtain ⟨row, there, gives⟩ := here.seen left active
    rw [table] at there
    obtain ⟨r, found, rfl⟩ := Option.map_eq_some_iff.mp there
    have same : key r = id := Table.key_of_get? found
    have listed := covers _ r (fun id => (here.owned id).mp) gives
    exact ⟨r, Table.mem_select.mpr ⟨Table.mem_of_get? found, listed⟩, _, (wrote r).1,
      same ▸ (wrote r).2⟩
  · exact fun _ _ r _ => ⟨_, (wrote r).1, congrArg Prod.fst (wrote r).2,
      fun fresh => (stale r fresh).elim⟩

end Sweep

/-- The devices a suspension finds are those of the member, as it locks the member's row. -/
theorem sweeping_start (held : .core (.user userId) ∈ s.locks)
    (log : ∀ w ∈ s.log, ∃ row, w = .core (.suspension row) ∧ row.userId = userId) :
    Sweeping userId ((s.view.core.devices.select fun row => row.enrolledByUserId == userId).map
      (·.id)) [] s := by
  refine ⟨held, fun id => ?_, ?_, nofun, ?_⟩
  · have same : s.view.row .device id = s.db.row .device id := by
      apply unwritten_row
      intro w member row is
      obtain ⟨_, rfl, _⟩ := log w member
      cases is
    constructor
    · rintro ⟨row, there, mine⟩
      rw [← same] at there
      obtain ⟨device, found, is⟩ := Option.map_eq_some_iff.mp there
      cases is
      refine List.mem_map.mpr ⟨row, Table.mem_select.mpr ⟨Table.mem_of_get? found, ?_⟩, ?_⟩
      · exact beq_iff_eq.mpr mine
      · exact Table.key_of_get? found
    · intro member
      obtain ⟨row, selected, rfl⟩ := List.mem_map.mp member
      obtain ⟨there, mine⟩ := Table.mem_select.mp selected
      refine ⟨row, ?_, beq_iff_eq.mp mine⟩
      rw [← same]
      exact congrArg (Option.map Row.device) (Table.get?_of_mem there)
  · intro w member row is
    obtain ⟨_, rfl, _⟩ := log w member
    cases is
  · intro row member
    obtain ⟨_, is, mine⟩ := log _ member
    cases is
    exact mine

theorem under_suspendMember {actor reason : String} {now : Int}
    (held : .core (.user userId) ∈ s.locks) (log : s.log = []) :
    under memberRely (suspendMember actor userId reason now) (fun _ s' => label.Effect s') s := by
  unfold suspendMember
  rw [Tx.under_change]
  intro db step
  rw [under_query]
  intro db' step'
  extract_lets ids
  have start : Sweeping userId ids [] _ := sweeping_start (s := ⟨db', _, _⟩)
    (List.mem_append_left _ held) (by
      rw [log, List.nil_append]
      intro w member
      exact ⟨_, List.mem_singleton.mp member, rfl⟩)
  apply start.under_devices
  intro s₁ _ swept₁
  apply swept₁.under_table .token (by decide) (·.core.tokens) .token (·.revoke now)
  · exact fun _ _ => rfl
  · exact fun _ => ⟨rfl, rfl⟩
  · exact fun _ fresh => nomatch fresh
  · exact fun _ token owned gives => List.contains_iff_mem.mpr (owned token.deviceId gives.2)
  intro s₂ _ swept₂
  apply swept₂.under_table .session (by decide) (·.sessions) .session fun s =>
    { s with revokedAt := some now }
  · exact fun _ _ => rfl
  · exact fun _ => ⟨rfl, rfl⟩
  · exact fun _ fresh => nomatch fresh
  · exact fun _ session _ gives => by simp [gives.1, gives.2]
  intro s₃ _ swept₃
  apply swept₃.under_table .code (by decide) (·.core.codes) .code fun row =>
    { row with status := .expired }
  · exact fun _ _ => rfl
  · exact fun _ => ⟨rfl, rfl⟩
  · exact fun _ fresh => nomatch fresh
  · exact fun _ code _ gives => by simp [gives.1, gives.2]
  intro s₄ _ swept₄
  apply swept₄.under_table .consent (by decide) (·.consents) .consent fun row =>
    { row with revokedAt := some now }
  · exact fun _ _ => rfl
  · exact fun _ => ⟨rfl, rfl⟩
  · exact fun _ fresh => nomatch fresh
  · exact fun _ consent _ gives => by simp [gives.1, gives.2]
  intro s₅ _ swept₅ db'' step''
  exact (swept₅.later step'').effect fun kind => by cases kind <;> simp

theorem under_setMemberSuspension {actor reason : String} {suspended : Bool} (log : s.log = []) :
    under memberRely (setMemberSuspension d actor userId suspended reason)
      (fun _ s' => label.Effect s') s := by
  unfold setMemberSuspension
  rw [under_check]
  intro _
  rw [under_check]
  intro _
  have unwritten : under memberRely (requireAdministrator d actor) (fun _ s' => s'.log = []) s :=
    reads_requireAdministrator.under (fun _ _ log _ => log) (fun _ _ log => log) log
  apply under_seq unwritten
  intro _ s₁ log₁
  apply under_lockUser
  intro s₂ targets log₂ locked
  rw [under_require]
  intro target found
  have held := locked (List.ne_nil_of_mem (List.mem_of_mem_head? found))
  rw [under_query]
  intro db step
  rw [under_check]
  intro _
  apply under_nowIso
  intro now
  cases suspended with
  | true => exact under_suspendMember held (log₂.trans log₁)
  | false => exact under_reinstateMember held (log₂.trans log₁)

end Calls

/-! ## Whatever runs concurrently -/

/-- No consent is granted to a member who is suspended when the grant commits. -/
def allowed (w : Members) (id : Nat) : Act Call Devices.Draw → Bool
  | .commit => w.sessions.rows.all fun s =>
    s.id != id || !s.label.grants.any fun userId => suspended w.db userId
  | _ => true

/-- Every call has its effect. -/
theorem under_program {d : Deployment} (label : Call) {s : Standing} (log : s.log = []) :
    under memberRely (label.program d) (fun _ s' => label.Effect s') s := by
  cases label with
  | setMemberSuspension actor userId suspended reason =>
    exact under_map.mpr (under_setMemberSuspension log)
  | createSession ttlMs userId => exact under_map.mpr (under_createSession log)
  | createPairing actor createdBy platform => exact under_map.mpr (under_createPairing log)
  | claimPairing input => exact under_map.mpr (under_claimPairing log)
  | grantConsent policy actor version => exact under_grant rfl log
  | revokeConsent actor =>
    exact under_quiet writes_revokeAiDataSharingConsent (log ▸ List.forall_mem_nil _)
  | assignTask policy actor turn refused =>
    exact under_map.mpr (under_quiet writes_assignTask (log ▸ List.forall_mem_nil _))

/-- Writes that give no access leave none that was not there. -/
theorem active_of_stale {s : Standing} (stale : ∀ w ∈ s.log, ∀ row, w.row = some row → ¬ row.Fresh)
    {userId id : String} {kind : Kind} (active : Active s.view userId kind id) :
    Active s.db userId kind id := by
  have before : ∀ {kind id row}, s.view.row kind id = some row → row.Fresh →
      s.db.row kind id = some row := by
    intro kind id row there fresh
    rcases found_row there with ⟨w, member, wrote⟩ | ⟨old, _⟩
    · exact (stale w member row wrote fresh).elim
    · exact old
  obtain ⟨row, there, gives⟩ := active
  refine ⟨row, before there gives.fresh, ?_⟩
  cases row with
  | token row =>
    obtain ⟨status, device, seen, mine⟩ := gives
    exact ⟨status, device, before seen trivial, mine⟩
  | session row => exact gives
  | device row => exact gives
  | code row => exact gives
  | consent row => exact gives

/-- What the commit of a call leaves. -/
theorem Call.Effect.commit {label : Call} {s : Standing} (h : label.Effect s) (swept : Swept s.db)
    (grant : ∀ userId, label.grants = some userId → suspended s.db userId = false) :
    Swept s.view ∧ ∀ others, Modes.Apart others s.locks → MemberLater others s.db s.view := by
  obtain ⟨userId, about, leaves⟩ := h
  refine ⟨fun other is => ?_, fun others apart => about.commit apart⟩
  by_cases same : other = userId
  · subst same
    rcases leaves is with clean | ⟨before, stale | grants⟩
    · exact clean
    · exact fun kind id active => swept other before kind id (active_of_stale stale active)
    · exact absurd (before.symm.trans (grant other grants)) Bool.noConfusion
  · rcases @About.suspended_view userId other s about with before | ⟨mine, _⟩
    · intro kind id active
      rcases about.active_view active with old | ⟨mine, _⟩
      · exact swept other (before.symm.trans is) kind id old
      · exact same mine
    · exact (same mine).elim

theorem memberRules (d : Deployment) :
    Modes.Rules (fun label => label.program d) (fun w id act => allowed w id act = true) memberRely
      (fun label _ (_ : Unit) s => label.Effect s) Swept where
  start := fun label _ _ => under_program label rfl
  commit := by
    intro w s _ member allowed swept effect
    apply effect.commit swept
    intro userId grants
    unfold Members.allowed at allowed
    have mine := List.all_eq_true.mp allowed s member
    change suspended w.db userId = false
    simpa [grants] using mine

/-- From a quiet start where no suspended member has access, in every run in which no grant commits
while its member is suspended, no suspended member has access in any state. -/
theorem suspended_swept (d : Deployment) {st : Store} (swept : Swept st) {w : Members}
    {ls : List (Nat × Act Call Devices.Draw)}
    (path : Path (Modes.Steps (fun label : Call => label.program d)
      (fun w id act => allowed w id act = true)) ls (World.quiet st) w) :
    ∀ userId, suspended w.db userId = true → ∀ kind id, ¬ Active w.db userId kind id :=
  (Modes.holds_path (memberRules d) path (Modes.holds_quiet swept)).1.invariant

/-! ## A grant beside a suspension -/

namespace Sample

def artoo : Deployment where
  hmacSha256Hex := id
  sha256Hex := id
  toUpperCase := id
  toLowerCase := id
  pairingTtlMs := 600000
  controlTokenTtlMs := 2592000000

def policy : AiDataSharingPolicy := ⟨"2026-05", .external⟩

def users : Table Devices.UserRow.id :=
  (Table.empty.put { id := "user_1", email := "ada@example.com", role := "owner" }).put
    { id := "user_2", email := "bob@example.com", role := "member" }

/-- An owner, and a member who is signed in. -/
def team : Store where
  core := { users }
  sessions := Table.empty.put (sessionRow "session_1" "user_2" "aa" "bb" 1000 600000)

/-- The suspension of the member, to its commit. -/
def suspends : List (Nat × Act Call Devices.Draw) :=
  (1, .begin (.setMemberSuspension "user_1" "user_2" true "left the team")) ::
    List.replicate 4 (1, .statement) ++ (1, .draw { instant := 2000 }) ::
      List.replicate 7 (1, .statement) ++ [(1, .commit)]

/-- A grant of the member, which waits for the lock of the suspension. -/
def grants : List (Nat × Act Call Devices.Draw) :=
  List.replicate 2 (2, .statement) ++ (2, .draw { instant := 3000 }) :: (2, .statement) ::
    (2, .draw { text := "consent_1" }) :: (2, .statement) :: [(2, .commit)]

def grantsBeside : List (Nat × Act Call Devices.Draw) :=
  (2, .begin (.grantConsent policy "user_2" "2026-05")) :: suspends ++ grants

end Sample

open Sample

theorem swept_of_none {st : Store} (none_ : ∀ userId, suspended st userId = false) : Swept st :=
  fun userId is => absurd ((none_ userId).symm.trans is) Bool.false_ne_true

theorem suspended_swept_team : ∃ ls w,
    Path (Modes.Steps (fun label : Call => label.program artoo)
      (fun w id act => allowed w id act = true)) ls (World.quiet team : Members) w ∧
      suspended w.db "user_2" = true ∧ ∀ kind id, ¬ Active w.db "user_2" kind id := by
  have runs : (Modes.exec (fun label : Call => label.program artoo)
      (fun w id act => allowed w id act = true) suspends (World.quiet team : Members)).map
      (fun w => suspended w.db "user_2") = some true := by
    decide +kernel
  obtain ⟨w, found, is⟩ := Option.map_eq_some_iff.mp runs
  have path := Modes.exec_path found
  exact ⟨_, w, path, is, suspended_swept artoo (swept_of_none fun _ => rfl) path "user_2" is⟩

/-- Suspended, and with a consent that is not revoked. -/
theorem grant_beside_suspension : Swept team ∧ ∃ ls w,
    Path (Modes.Steps (fun label : Call => label.program artoo) fun _ _ _ => True) ls
      (World.quiet team : Members) w ∧
      suspended w.db "user_2" = true ∧ Active w.db "user_2" .consent "consent_1" := by
  have runs : (Modes.exec (fun label : Call => label.program artoo) (fun _ _ _ => True) grantsBeside
      (World.quiet team : Members)).map
      (fun w => (suspended w.db "user_2", w.db.consents.get? "consent_1")) =
        some (true, some ⟨"consent_1", "user_2", "2026-05", 3000, none⟩) := by
    decide +kernel
  obtain ⟨w, found, is⟩ := Option.map_eq_some_iff.mp runs
  obtain ⟨is, there⟩ := Prod.mk.inj is
  exact ⟨swept_of_none fun _ => rfl, _, w, Modes.exec_path found, is, .consent _,
    congrArg (Option.map Row.consent) there, rfl, rfl⟩

end Artoo.Members
