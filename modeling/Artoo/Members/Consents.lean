import Artoo.Lib.Beside
import Artoo.Members.Access

/-! What is committed of consents and runs: a member has one active consent at most, a revoked
consent stays revoked, and a run keeps the consent it was created under. -/
namespace Artoo.Members
open Artoo.Lib Tx
open Artoo.Devices (Deployment)

/-- One row at different times. -/
structure ConsentRow.Later (row row' : ConsentRow) : Prop where
  userId : row'.userId = row.userId
  policyVersion : row'.policyVersion = row.policyVersion
  revoked : row.revokedAt.isSome → row'.revokedAt.isSome

theorem ConsentRow.Later.refl (row : ConsentRow) : row.Later row := ⟨rfl, rfl, fun revoked => revoked⟩

theorem ConsentRow.Later.trans {a b c : ConsentRow} (first : a.Later b) (last : b.Later c) :
    a.Later c :=
  ⟨last.userId.trans first.userId, last.policyVersion.trans first.policyVersion,
    fun revoked => last.revoked (first.revoked revoked)⟩

def KeepConsents (st st' : Store) : Prop := ∀ id row, st.consents.get? id = some row →
  ∃ row', st'.consents.get? id = some row' ∧ row.Later row'

def KeepRuns (st st' : Store) : Prop :=
  ∀ id run, st.runs.get? id = some run → st'.runs.get? id = some run

/-- The active consents of a member in `st'` are those of `st`. -/
def NoNewConsent (userId : String) (st st' : Store) : Prop := ∀ id row,
  st'.consents.get? id = some row → row.userId = userId → row.revokedAt = none →
    st.consents.get? id = some row

/-- A member has one active consent at most. -/
def OneGrant (st : Store) : Prop := ∀ userId,
  ∀ row ∈ activeConsents userId st, ∀ other ∈ activeConsents userId st, row = other

/-- What others may commit of consents and runs. -/
structure ConsentLater (locks : List Lock) (st st' : Store) : Prop where
  consents : KeepConsents st st'
  runs : KeepRuns st st'
  consent : ∀ id, .consent id ∈ locks → st'.consents.get? id = st.consents.get? id
  run : ∀ id, .run id ∈ locks → st'.runs.get? id = st.runs.get? id
  active : ∀ userId, .activeConsent userId ∈ locks → NoNewConsent userId st st'

def consentRely : Rely Store Lock where
  rel := ConsentLater
  refl _ _ := ⟨fun _ row there => ⟨row, there, .refl row⟩, fun _ _ there => there, fun _ _ => rfl,
    fun _ _ => rfl, fun _ _ _ _ there _ _ => there⟩
  trans _ _ _ _ first last := by
    constructor
    · intro id row there
      obtain ⟨mid, seen, later⟩ := first.consents id row there
      obtain ⟨row', found, later'⟩ := last.consents id mid seen
      exact ⟨row', found, later.trans later'⟩
    · exact fun id run there => last.runs id run (first.runs id run there)
    · exact fun id held => (last.consent id held).trans (first.consent id held)
    · exact fun id held => (last.run id held).trans (first.run id held)
    · intro userId held id row there own active
      exact first.active userId held id row (last.active userId held id row there own active) own
        active
  weaken _ _ _ _ sub h :=
    ⟨h.consents, h.runs, fun id held => h.consent id (sub held), fun id held => h.run id (sub held),
      fun userId held => h.active userId (sub held)⟩

/-! ## The tables under a log -/

def Write.consent? : Write → Option ConsentRow
  | .consent row => some row
  | _ => none

def Write.run? : Write → Option RunRow
  | .run row => some row
  | _ => none

theorem consents_writeAll {log : List Write} {st : Store} {id : String} :
    (writeAll log st).consents.get? id =
      (logged ConsentRow.id Write.consent? log id).or (st.consents.get? id) :=
  get?_writeAll Store.consents fun w _ => by cases w <;> rfl

theorem runs_writeAll {log : List Write} {st : Store} {id : String} :
    (writeAll log st).runs.get? id =
      (logged RunRow.id Write.run? log id).or (st.runs.get? id) :=
  get?_writeAll Store.runs fun w _ => by cases w <;> rfl

theorem consent_of_logged {log : List Write} {id : String} {row : ConsentRow}
    (found : logged ConsentRow.id Write.consent? log id = some row) :
    row.id = id ∧ .consent row ∈ log := by
  obtain ⟨key, w, member, is⟩ := logged_eq_some found
  cases w with
  | consent r =>
    cases is
    exact ⟨key, member⟩
  | _ => cases is

theorem run_of_logged {log : List Write} {id : String} {row : RunRow}
    (found : logged RunRow.id Write.run? log id = some row) : row.id = id ∧ .run row ∈ log := by
  obtain ⟨key, w, member, is⟩ := logged_eq_some found
  cases w with
  | run r =>
    cases is
    exact ⟨key, member⟩
  | _ => cases is

/-! ## What a transaction has done -/

abbrev Progressing := Progress Store Write Lock

/-- So far, a transaction only revokes consents, adds one to a member without any, and adds runs;
under the locks of the rows and of the index. -/
structure Tidy (s : Progressing) : Prop where
  consents : KeepConsents s.db s.view
  runs : KeepRuns s.db s.view
  heldConsent : ∀ row, .consent row ∈ s.log →
    .consent row.id ∈ s.locks ∧ .activeConsent row.userId ∈ s.locks
  heldRun : ∀ row, .run row ∈ s.log → .run row.id ∈ s.locks
  one : ∀ userId, NoNewConsent userId s.db s.view ∨ .activeConsent userId ∈ s.locks ∧
    ∃ only, ∀ id row, s.view.consents.get? id = some row → row.userId = userId →
      row.revokedAt = none → id = only

theorem tidy_start {s : Progressing} (log : s.log = []) : Tidy s := by
  have view : s.view = s.db := by simp [Progress.view, log]
  refine ⟨fun id row there => ⟨row, view ▸ there, .refl row⟩, fun id run there => view ▸ there, ?_,
    ?_, fun userId => Or.inl fun id row there _ _ => view ▸ there⟩
  · simp [log]
  · simp [log]

section Tidy

variable {s : Progressing} {st : Store} {id userId : String}

/-- A row of the transaction itself stays as it wrote it. -/
theorem consent_at_of_logged (st : Store) {row : ConsentRow}
    (found : logged ConsentRow.id Write.consent? s.log id = some row) :
    (s.at_ st).view.consents.get? id = some row := by
  change (writeAll s.log st).consents.get? id = _
  rw [consents_writeAll, found]
  rfl

theorem consent_at_of_unlogged (st : Store)
    (off : logged ConsentRow.id Write.consent? s.log id = none) :
    (s.at_ st).view.consents.get? id = st.consents.get? id := by
  change (writeAll s.log st).consents.get? id = _
  rw [consents_writeAll, off]
  rfl

theorem Tidy.later (h : Tidy s) (step : ConsentLater s.locks s.db st) : Tidy (s.at_ st) := by
  -- what is active in the new view was so in the old one, or is in the committed state
  have active : ∀ id row, (s.at_ st).view.consents.get? id = some row →
      (s.view.consents.get? id = some row ∧ .consent id ∈ s.locks) ∨
        (st.consents.get? id = some row ∧
          logged ConsentRow.id Write.consent? s.log id = none) := by
    intro id row there
    cases found : logged ConsentRow.id Write.consent? s.log id with
    | some mine =>
      rw [consent_at_of_logged st found] at there
      cases there
      obtain ⟨rfl, member⟩ := consent_of_logged found
      exact Or.inl ⟨consent_at_of_logged s.db found, (h.heldConsent row member).1⟩
    | none => exact Or.inr ⟨(consent_at_of_unlogged st found).symm.trans there, rfl⟩
  refine ⟨?_, ?_, h.heldConsent, h.heldRun, fun userId => ?_⟩
  · intro id row there
    cases found : logged ConsentRow.id Write.consent? s.log id with
    | some mine =>
      obtain ⟨rfl, member⟩ := consent_of_logged found
      have before := (step.consent mine.id (h.heldConsent mine member).1).symm.trans there
      obtain ⟨row', seen, later⟩ := h.consents mine.id row before
      cases (consent_at_of_logged s.db found).symm.trans seen
      exact ⟨mine, consent_at_of_logged st found, later⟩
    | none => exact ⟨row, (consent_at_of_unlogged st found).trans there, .refl row⟩
  · intro id run there
    change (writeAll s.log st).runs.get? id = _
    rw [runs_writeAll]
    cases found : logged RunRow.id Write.run? s.log id with
    | some mine =>
      obtain ⟨rfl, member⟩ := run_of_logged found
      have before := (step.run mine.id (h.heldRun mine member)).symm.trans there
      have seen := h.runs mine.id run before
      change (writeAll s.log s.db).runs.get? mine.id = _ at seen
      rw [runs_writeAll, found] at seen
      exact seen
    | none => exact there
  · rcases h.one userId with old | ⟨held, only, unique⟩
    · refine Or.inl fun id row there own gives => ?_
      rcases active id row there with ⟨seen, locked⟩ | ⟨new, _⟩
      · exact (step.consent id locked).trans (old id row seen own gives)
      · exact new
    · refine Or.inr ⟨held, only, fun id row there own gives => ?_⟩
      rcases active id row there with ⟨seen, _⟩ | ⟨new, off⟩
      · exact unique id row seen own gives
      · have before := step.active userId held id row new own gives
        exact unique id row ((consent_at_of_unlogged s.db off).trans before) own gives

/-- More writes, by what they leave of consents and runs. -/
theorem Tidy.after (h : Tidy s) {more : List Lock} {new : List Write}
    (consents : KeepConsents s.view (writeAll new s.view))
    (runs : KeepRuns s.view (writeAll new s.view))
    (heldConsent : ∀ row, .consent row ∈ new →
      .consent row.id ∈ more ∧ .activeConsent row.userId ∈ more)
    (heldRun : ∀ row, .run row ∈ new → .run row.id ∈ more)
    (one : ∀ userId, NoNewConsent userId s.view (writeAll new s.view) ∨
      .activeConsent userId ∈ more ∧ ∃ only, ∀ id row,
        (writeAll new s.view).consents.get? id = some row → row.userId = userId →
          row.revokedAt = none → id = only) :
    Tidy ⟨s.db, s.locks ++ more, s.log ++ new⟩ := by
  have view : (⟨s.db, s.locks ++ more, s.log ++ new⟩ : Progressing).view = writeAll new s.view :=
    writeAll_append _ _ _
  refine ⟨?_, ?_, ?_, ?_, ?_⟩
  · intro id row there
    obtain ⟨mid, seen, later⟩ := h.consents id row there
    obtain ⟨row', found, later'⟩ := consents id mid seen
    exact ⟨row', view ▸ found, later.trans later'⟩
  · intro id run there
    rw [view]
    exact runs id run (h.runs id run there)
  · intro row member
    rcases List.mem_append.mp member with old | wrote
    · exact (h.heldConsent row old).imp (List.mem_append_left _) (List.mem_append_left _)
    · exact (heldConsent row wrote).imp (List.mem_append_right _) (List.mem_append_right _)
  · intro row member
    rcases List.mem_append.mp member with old | wrote
    · exact List.mem_append_left _ (h.heldRun row old)
    · exact List.mem_append_right _ (heldRun row wrote)
  · intro userId
    rw [view]
    rcases one userId with none_ | ⟨held, only, unique⟩
    · rcases h.one userId with before | ⟨held, only, unique⟩
      · refine Or.inl fun id row there own active => ?_
        exact before id row (none_ id row there own active) own active
      · refine Or.inr ⟨List.mem_append_left _ held, only, fun id row there own active => ?_⟩
        exact unique id row (none_ id row there own active) own active
    · exact Or.inr ⟨List.mem_append_right _ held, only, unique⟩

theorem consents_unwritten {new : List Write} (none_ : ∀ w ∈ new, w.consent? = none) (st : Store) :
    (writeAll new st).consents = st.consents := by
  induction new generalizing st with
  | nil => rfl
  | cons w new ih =>
    rw [writeAll_cons, ih (fun w' member => none_ w' (List.mem_cons_of_mem _ member))]
    cases w with
    | consent row => exact nomatch none_ _ List.mem_cons_self
    | _ => rfl

theorem runs_unwritten {new : List Write} (none_ : ∀ w ∈ new, w.run? = none) (st : Store) :
    (writeAll new st).runs = st.runs := by
  induction new generalizing st with
  | nil => rfl
  | cons w new ih =>
    rw [writeAll_cons, ih (fun w' member => none_ w' (List.mem_cons_of_mem _ member))]
    cases w with
    | run row => exact nomatch none_ _ List.mem_cons_self
    | _ => rfl

/-- Writes to neither table. -/
theorem Tidy.apart (h : Tidy s) {more : List Lock} {new : List Write}
    (other : ∀ w ∈ new, w.consent? = none ∧ w.run? = none) :
    Tidy ⟨s.db, s.locks ++ more, s.log ++ new⟩ := by
  have consents := consents_unwritten (fun w member => (other w member).1) s.view
  have runs := runs_unwritten (fun w member => (other w member).2) s.view
  apply h.after
  · intro id row there
    exact ⟨row, consents ▸ there, .refl row⟩
  · intro id run there
    rwa [runs]
  · exact fun row member => nomatch (other _ member).1
  · exact fun row member => nomatch (other _ member).2
  · intro userId
    refine Or.inl fun id row there _ _ => ?_
    rwa [consents] at there

/-- The active consents are revoked. -/
theorem Tidy.revoke (h : Tidy s) {now : Int} {set : ConsentRow → Write}
    (is : ∀ row, set row = .consent { row with revokedAt := some now }) :
    Tidy ⟨s.db, s.locks ++ ((activeConsents userId s.view).map set).flatMap (Tables.guards Store),
      s.log ++ (activeConsents userId s.view).map set⟩ := by
  have wrote : ∀ id mine, logged ConsentRow.id Write.consent?
      ((activeConsents userId s.view).map set) id = some mine →
        ∃ row, s.view.consents.get? id = some row ∧ mine = { row with revokedAt := some now } := by
    intro id mine found
    obtain ⟨key, member⟩ := consent_of_logged found
    obtain ⟨row, there, same⟩ := List.mem_map.mp member
    rw [is] at same
    cases same
    have key : row.id = id := key
    exact ⟨row, key ▸ Table.get?_of_mem (Table.mem_select.mp there).1, rfl⟩
  apply h.after
  · intro id row there
    rw [consents_writeAll]
    cases found : logged ConsentRow.id Write.consent? _ id with
    | some mine =>
      obtain ⟨old, seen, rfl⟩ := wrote id mine found
      cases there.symm.trans seen
      exact ⟨_, rfl, rfl, rfl, fun _ => rfl⟩
    | none => exact ⟨row, there, .refl row⟩
  · intro id run there
    rw [runs_unwritten]
    · exact there
    · intro w member
      obtain ⟨row, _, rfl⟩ := List.mem_map.mp member
      rw [is]
      rfl
  · intro row member
    have held : ∀ k ∈ Tables.guards Store (Write.consent row),
        k ∈ ((activeConsents userId s.view).map set).flatMap (Tables.guards Store) :=
      fun k guards => List.mem_flatMap.mpr ⟨_, member, guards⟩
    exact ⟨held _ List.mem_cons_self, held _ (List.mem_cons_of_mem _ List.mem_cons_self)⟩
  · intro row member
    obtain ⟨_, _, same⟩ := List.mem_map.mp member
    rw [is] at same
    cases same
  · intro other
    refine Or.inl fun id row there _ active => ?_
    rw [consents_writeAll] at there
    cases found : logged ConsentRow.id Write.consent?
        ((activeConsents userId s.view).map set) id with
    | some mine =>
      rw [found] at there
      cases there
      obtain ⟨old, _, rfl⟩ := wrote id _ found
      cases active
    | none =>
      rw [found] at there
      exact there

/-- A consent more, of a member without an active one. -/
theorem Tidy.grant (h : Tidy s) {row : ConsentRow} (fresh : s.view.consents.get? row.id = none)
    (none_ : activeConsents row.userId s.view = []) :
    Tidy ⟨s.db, s.locks ++ Tables.guards Store (Write.consent row), s.log ++ [.consent row]⟩ := by
  have look : ∀ id, (writeAll [Write.consent row] s.view).consents.get? id =
      if row.id = id then some row else s.view.consents.get? id := fun id => Table.get?_put
  apply h.after
  · intro id old there
    rw [look, if_neg]
    · exact ⟨old, there, .refl old⟩
    · rintro rfl
      rw [fresh] at there
      cases there
  · exact fun id run there => there
  · intro other member
    cases List.mem_singleton.mp member
    exact ⟨List.mem_cons_self, List.mem_cons_of_mem _ List.mem_cons_self⟩
  · exact fun other member => nomatch List.mem_singleton.mp member
  · intro userId
    by_cases own : row.userId = userId
    · refine Or.inr ⟨own ▸ List.mem_cons_of_mem _ List.mem_cons_self, row.id, ?_⟩
      intro id other there mine active
      rw [look] at there
      split at there
      · rename_i same
        exact same.symm
      · have member : other ∈ activeConsents row.userId s.view :=
          Table.mem_select.mpr ⟨Table.mem_of_get? there, by simp [mine, own, active]⟩
        rw [none_] at member
        exact absurd member List.not_mem_nil
    · refine Or.inl fun id other there mine active => ?_
      rw [look] at there
      split at there
      · cases there
        exact absurd mine own
      · exact there

/-- A run more. -/
theorem Tidy.run (h : Tidy s) {row : RunRow} (fresh : s.view.runs.get? row.id = none) :
    Tidy ⟨s.db, s.locks ++ Tables.guards Store (Write.run row), s.log ++ [.run row]⟩ := by
  apply h.after
  · exact fun id old there => ⟨old, there, .refl old⟩
  · intro id old there
    change (s.view.runs.put row).get? id = some old
    rw [Table.get?_put, if_neg]
    · exact there
    · rintro rfl
      rw [fresh] at there
      cases there
  · exact fun _ member => nomatch List.mem_singleton.mp member
  · intro other member
    cases List.mem_singleton.mp member
    exact List.mem_singleton.mpr rfl
  · exact fun _ => Or.inl fun _ _ there _ _ => there

end Tidy

/-! ## The calls -/

section Calls

variable {α β : Type} {d : Deployment} {s : Progressing} {post : α → Progressing → Prop}

/-- A write to neither consents nor runs. -/
def Write.Apart (w : Write) : Prop := w.consent? = none ∧ w.run? = none

theorem Tidy.writes (h : Tidy s) {p : Txn α} (apart : Writes (fun _ w => Write.Apart w) p) :
    under consentRely p (fun _ s' => Tidy s') s :=
  Writes.under apart (fun _ _ tidy step => tidy.later step) (fun _ _ _ tidy wrote => tidy.apart wrote)
    h

theorem Tidy.under_query (h : Tidy s) {rows : Store → β} {k : β → Txn α}
    (rest : ∀ s' found, Tidy s' → under consentRely (k found) post s') :
    under consentRely (query rows >>= k) post s := by
  rw [Tx.under_query]
  exact fun db step => rest _ _ (h.later step)

theorem Tidy.under_change (h : Tidy s) {matching : Store → List β} {set : β → Write}
    {k : List β → Txn α} (apart : ∀ b, (set b).Apart)
    (rest : ∀ s' found, Tidy s' → under consentRely (k found) post s') :
    under consentRely (change matching set >>= k) post s := by
  rw [Tx.under_change]
  intro db step
  refine rest _ _ ((h.later step).apart ?_)
  intro w member
  obtain ⟨b, _, rfl⟩ := List.mem_map.mp member
  exact apart b

theorem Tidy.under_revoke (h : Tidy s) {userId : String} {now : Int} {k : List ConsentRow → Txn α}
    (rest : ∀ s' found, Tidy s' → under consentRely (k found) post s') :
    under consentRely (revokeConsents userId now >>= k) post s := by
  unfold revokeConsents
  rw [Tx.under_change]
  exact fun db step => rest _ _ ((h.later step).revoke fun _ => rfl)

theorem Tidy.finish (h : Tidy s) {a : α} :
    under consentRely (pure a : Txn α) (fun _ s' => Tidy s') s := fun _ step => h.later step

theorem Tidy.under_seq (h : Tidy s) {p : Txn β} {k : β → Txn α}
    (apart : Writes (fun _ w => Write.Apart w) p)
    (rest : ∀ b s', Tidy s' → under consentRely (k b) post s') :
    under consentRely (p >>= k) post s :=
  Tx.under_seq (h.writes apart) rest

theorem writes_createSession {ttlMs : Int} {userId : String} :
    Writes (fun _ w => Write.Apart w) (createSession d ttlMs userId) := by
  unfold createSession
  refine writes_bind (fun _ => trivial) fun lookup => ?_
  refine writes_bind (fun _ => trivial) fun secret => ?_
  refine writes_bind (fun _ => trivial) fun id => ?_
  refine writes_bind (fun _ => trivial) fun now => ?_
  apply writes_bind reads_requireActiveMember.writes
  intro _
  exact writes_bind (writes_add fun _ _ => ⟨rfl, rfl⟩) fun _ => writes_done

theorem writes_createPairing {actor createdBy : String}
    {platform : Option Devices.DevicePlatform} :
    Writes (fun _ w => Write.Apart w) (createPairing d actor createdBy platform) := by
  unfold createPairing
  apply writes_bind writes_query
  intro _
  apply writes_bind writes_check
  intro _
  refine writes_bind (fun _ => trivial) fun code => ?_
  refine writes_bind (fun _ => trivial) fun now => ?_
  refine writes_bind (fun _ => trivial) fun id => ?_
  apply writes_bind reads_requireActiveMember.writes
  intro _
  exact writes_bind (writes_add fun _ _ => ⟨rfl, rfl⟩) fun _ => writes_done

theorem writes_updatePending {id : String}
    {set : Devices.PairingCodeRow → Devices.PairingCodeRow} :
    Writes (fun _ w => Write.Apart w) (updatePending id set) :=
  writes_change fun _ _ _ => ⟨rfl, rfl⟩

theorem writes_claimInTx {input : Devices.ClaimPairingInput} {existing : Devices.PairingCodeRow}
    {now : Int} : Writes (fun _ w => Write.Apart w) (claimInTx d input existing now) := by
  unfold claimInTx
  apply writes_bind reads_isActiveMember.writes
  intro _
  apply writes_bind writes_check
  intro _
  refine writes_bind (fun _ => trivial) fun id => ?_
  apply writes_bind (writes_add fun _ _ => ⟨rfl, rfl⟩)
  intro _
  apply writes_bind writes_updatePending
  intro claimed
  apply writes_bind writes_check
  intro _
  refine writes_bind (fun _ _ => trivial) fun control => ?_
  refine writes_bind (fun _ _ => trivial) fun node => ?_
  refine writes_bind (fun _ => trivial) fun controlRow => ?_
  refine writes_bind (fun _ => trivial) fun nodeRow => ?_
  apply writes_bind (writes_add fun _ _ => ⟨rfl, rfl⟩)
  intro _
  exact writes_bind (writes_add fun _ _ => ⟨rfl, rfl⟩) fun _ => writes_done

theorem writes_claimPairing {input : Devices.ClaimPairingInput} :
    Writes (fun _ w => Write.Apart w) (claimPairing d input) := by
  unfold claimPairing
  apply writes_bind writes_check
  intro _
  refine writes_bind (fun _ => trivial) fun now => ?_
  apply writes_bind writes_query
  intro rows
  refine writes_bind (fun _ => trivial) fun choice => ?_
  apply writes_bind writes_require
  intro existing
  apply writes_bind writes_check
  intro _
  split
  · exact writes_bind writes_updatePending fun _ => writes_done
  · exact writes_bind writes_check fun _ => writes_claimInTx

theorem Tidy.suspendMember (h : Tidy s) {actor userId reason : String} {now : Int} :
    under consentRely (suspendMember actor userId reason now) (fun _ s' => Tidy s') s := by
  unfold Members.suspendMember
  apply h.under_change fun _ => ⟨rfl, rfl⟩
  intro s₁ _ tidy
  apply tidy.under_query
  intro s₂ owned tidy
  apply tidy.under_change fun _ => ⟨rfl, rfl⟩
  intro s₃ _ tidy
  apply tidy.under_change fun _ => ⟨rfl, rfl⟩
  intro s₄ _ tidy
  apply tidy.under_change fun _ => ⟨rfl, rfl⟩
  intro s₅ _ tidy
  apply tidy.under_change fun _ => ⟨rfl, rfl⟩
  intro s₆ _ tidy
  exact tidy.under_revoke fun _ _ tidy => tidy.finish

theorem Tidy.setMemberSuspension (h : Tidy s) {actor userId reason : String} {suspended : Bool} :
    under consentRely (setMemberSuspension d actor userId suspended reason) (fun _ s' => Tidy s')
      s := by
  unfold Members.setMemberSuspension
  rw [under_check]
  intro _
  rw [under_check]
  intro _
  apply h.under_seq reads_requireAdministrator.writes
  intro _ s₁ tidy
  apply tidy.under_seq writes_queryForUpdate
  intro targets s₂ tidy
  rw [under_require]
  intro target _
  apply tidy.under_query
  intro s₃ acting tidy
  rw [under_check]
  intro _
  apply tidy.under_seq (p := nowIso) fun _ => trivial
  intro now s₄ tidy
  cases suspended with
  | true => exact tidy.suspendMember
  | false =>
    unfold reinstateMember
    exact tidy.under_change (fun _ => ⟨rfl, rfl⟩) fun _ _ tidy => tidy.finish

theorem Tidy.grantAiDataSharingConsent (h : Tidy s) {policy : Option AiDataSharingPolicy}
    {actor version : String} :
    under consentRely (grantAiDataSharingConsent policy actor version) (fun _ s' => Tidy s') s := by
  unfold Members.grantAiDataSharingConsent
  apply h.under_seq writes_require
  intro policy s₁ tidy
  rw [under_check]
  intro _
  rw [under_check]
  intro _
  apply tidy.under_seq writes_queryForUpdate
  intro rows s₂ tidy
  rw [under_check]
  intro _
  apply tidy.under_query
  intro s₃ current tidy
  split
  · exact tidy.finish
  · unfold replaceGrant
    apply tidy.under_seq (p := nowIso) fun _ => trivial
    intro now s₄ tidy
    apply tidy.under_revoke
    intro s₅ _ tidy
    apply tidy.under_seq (p := generate) fun _ => trivial
    intro id s₆ tidy
    unfold insertConsent
    rw [← bind_pure (Tx.add _ _ _), under_add]
    intro db step free
    rw [Bool.or_eq_false_iff, Option.isSome_eq_false_iff, Bool.not_eq_false'] at free
    refine ((tidy.later step).grant ?_ ?_).finish
    · exact Option.isNone_iff_eq_none.mp free.1
    · exact List.isEmpty_iff.mp free.2

theorem Tidy.revokeAiDataSharingConsent (h : Tidy s) {actor : String} :
    under consentRely (revokeAiDataSharingConsent actor) (fun _ s' => Tidy s') s := by
  unfold Members.revokeAiDataSharingConsent
  apply h.under_seq writes_queryForUpdate
  intro rows s₁ tidy
  rw [under_check]
  intro _
  apply tidy.under_seq (p := nowIso) fun _ => trivial
  intro now s₂ tidy
  exact tidy.under_revoke fun _ _ tidy => tidy.finish

theorem Tidy.assignTask (h : Tidy s) {policy : Option AiDataSharingPolicy} {actor : String}
    {turn : Option AiSharingAuthorization} {refused : Option AppError} :
    under consentRely (assignTask policy actor turn refused) (fun _ s' => Tidy s') s := by
  unfold Members.assignTask
  apply h.under_seq reads_requireAiSharingAuthorization.writes
  intro sharing s₁ tidy
  extract_lets rest
  have created : ∀ sharing s', Tidy s' →
      under consentRely (rest sharing) (fun _ s' => Tidy s') s' := by
    intro sharing s₂ tidy
    apply tidy.under_seq writes_ofResult
    intro _ s₃ tidy
    apply tidy.under_seq (p := generate) fun _ => trivial
    intro id s₄ tidy
    extract_lets row
    rw [under_add]
    intro db step free
    rw [Option.isSome_eq_false_iff, Option.isNone_iff_eq_none] at free
    exact ((tidy.later step).run free).finish
  cases turn with
  | none => exact created sharing s₁ tidy
  | some turn => exact tidy.under_seq reads_requireAiSharingAuthorization.writes created

theorem Tidy.program (h : Tidy s) (label : Call) :
    under consentRely (label.program d) (fun _ s' => Tidy s') s := by
  cases label with
  | setMemberSuspension actor userId suspended reason => exact under_map.mpr h.setMemberSuspension
  | createSession ttlMs userId => exact under_map.mpr (h.writes writes_createSession)
  | createPairing actor createdBy platform => exact under_map.mpr (h.writes writes_createPairing)
  | claimPairing input => exact under_map.mpr (h.writes writes_claimPairing)
  | grantConsent policy actor version => exact h.grantAiDataSharingConsent
  | revokeConsent actor => exact h.revokeAiDataSharingConsent
  | assignTask policy actor turn refused => exact under_map.mpr h.assignTask

end Calls

/-! ## Whatever runs concurrently -/

section Commit

variable {s : Progressing}

theorem Tidy.commit (h : Tidy s) {others : List Lock} (apart : Modes.Apart others s.locks) :
    ConsentLater others s.db s.view := by
  have exclusive : ∀ k ∈ others, Lock.conflicts k k = true → k ∉ s.locks := by
    intro k theirs self mine
    exact absurd (self.symm.trans (apart k theirs k mine).1) Bool.noConfusion
  refine ⟨h.consents, h.runs, fun id held => ?_, fun id held => ?_, fun userId held => ?_⟩
  · change (writeAll s.log s.db).consents.get? id = _
    rw [consents_writeAll]
    cases found : logged ConsentRow.id Write.consent? s.log id with
    | none => rfl
    | some mine =>
      obtain ⟨rfl, member⟩ := consent_of_logged found
      exact (exclusive _ held (by simp [Lock.conflicts]) (h.heldConsent mine member).1).elim
  · change (writeAll s.log s.db).runs.get? id = _
    rw [runs_writeAll]
    cases found : logged RunRow.id Write.run? s.log id with
    | none => rfl
    | some mine =>
      obtain ⟨rfl, member⟩ := run_of_logged found
      exact (exclusive _ held (by simp [Lock.conflicts]) (h.heldRun mine member)).elim
  · rcases h.one userId with none_ | ⟨mine, _⟩
    · exact none_
    · exact (exclusive _ held (by simp [Lock.conflicts]) mine).elim

theorem mem_activeConsents {userId : String} {st : Store} {row : ConsentRow} :
    row ∈ activeConsents userId st ↔
      st.consents.get? row.id = some row ∧ row.userId = userId ∧ row.revokedAt = none := by
  unfold activeConsents
  rw [Table.mem_select]
  simp only [Bool.and_eq_true, beq_iff_eq, Option.isNone_iff_eq_none]
  exact and_congr_left fun _ => ⟨Table.get?_of_mem, Table.mem_of_get?⟩

theorem Tidy.oneGrant (h : Tidy s) (one : OneGrant s.db) : OneGrant s.view := by
  intro userId row member other also
  obtain ⟨there, own, active⟩ := mem_activeConsents.mp member
  obtain ⟨there', own', active'⟩ := mem_activeConsents.mp also
  rcases h.one userId with none_ | ⟨_, only, unique⟩
  · apply one userId row _ other
    · exact mem_activeConsents.mpr ⟨none_ _ _ there' own' active', own', active'⟩
    · exact mem_activeConsents.mpr ⟨none_ _ _ there own active, own, active⟩
  · have same := (unique _ _ there own active).trans (unique _ _ there' own' active').symm
    rw [same, there'] at there
    cases there
    rfl

end Commit

/-- Any step of the calls. -/
abbrev Step (d : Deployment) : Nat × Act Call Devices.Draw → Members → Members → Prop :=
  Modes.Steps (fun label => label.program d) fun _ _ _ => True

theorem consentRules (d : Deployment) :
    Modes.Rules (fun label => label.program d) (fun (_ : Members) _ _ => True) consentRely
      (fun _ _ _ s => Tidy s) OneGrant where
  start label _ _ := (tidy_start rfl).program label
  commit _ _ _ _ _ one tidy := ⟨tidy.oneGrant one, fun _ apart => tidy.commit apart⟩

/-- A run of the calls, from a store with one active consent a member at most. -/
theorem consents_lead {d : Deployment} {st : Store} (one : OneGrant st) {w : Members}
    (start : Leads (Step d) (World.quiet st) w) : OneGrant w.db ∧ ∀ w',
      Leads (Step d) w w' → KeepConsents w.db w'.db ∧ KeepRuns w.db w'.db := by
  obtain ⟨ls, path⟩ := start
  have holds := (Modes.holds_path (consentRules d) path (Modes.holds_quiet one)).1
  refine ⟨holds.invariant, fun w' ⟨ms, more⟩ => ?_⟩
  have later := (Modes.holds_path (consentRules d) more holds).2
  exact ⟨later.consents, later.runs⟩

end Artoo.Members
