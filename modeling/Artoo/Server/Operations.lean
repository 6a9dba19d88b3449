import Artoo.Server.Moves

/-! The move each service transaction makes. -/
namespace Artoo.Server
open Artoo.Lib Artoo.Protocol Artoo.Domain Tx

variable {f : Effect} {ctx : Context}

theorem wp_insertTask {row : TaskRow} {post : Unit → Database → Prop} {db : Database} :
    wp (insertTask row) post db ↔
      (db.tasks.get? row.id = none → post () { db with tasks := db.tasks.put row }) := by
  unfold insertTask
  rw [wp_insert, Option.isSome_eq_false_iff, Option.isNone_iff_eq_none]
  exact Iff.rfl

theorem wp_createTask {req : CreateTaskRequest} {db : Database} :
    wp (createTask ctx req) (fun _ db' => ∃ taskId, (board db).task taskId = none ∧
      Makes f (.create taskId) db db') db := by
  unfold createTask
  rw [wp_bind, wp_nowIso]
  intro now
  rw [wp_bind, wp_generate]
  intro id
  rw [wp_bind, wp_generate]
  intro roomId
  rw [wp_bind, wp_insertTask]
  intro fresh
  refine wp_within (Quiet f) ?_ ?_
  · apply keeps_bind (keeps_logOther .taskCreated rfl (by decide))
    intro _
    apply keeps_bind (keeps_logOther .roomCreated rfl (by decide))
    intro _
    exact keeps_bind keeps_select fun _ => keeps_orThrow
  · intro _ db' quiet
    refine ⟨id, ?_, (makes_insertTask rfl).quiet quiet⟩
    change (db.tasks.get? id).map _ = none
    rw [fresh]
    rfl

theorem canTriage {s : TaskStatus} (can : canTransitionTask s .triage = true) : s = .backlog := by
  cases s <;> first | rfl | cases can

theorem canRetry {s : TaskStatus} (can : canTransitionTask s .retry = true) : s = .blocked := by
  cases s <;> first | rfl | cases can

theorem taskUpdated_other {task : TaskRow} {extra : Payload} {target : TaskStatus} :
    ∀ spec ∈ [taskUpdated ctx task extra target], spec.type ∉ lifecycleEvents := by
  intro spec member
  rw [List.mem_singleton.mp member]
  exact (by decide : EventType.taskUpdated ∉ lifecycleEvents)

theorem wp_markReady {taskId : String} {db : Database} :
    wp (markReady ctx taskId) (fun _ db' => Makes f (.task taskId .backlog .ready) db db') db := by
  unfold markReady
  rw [wp_bind, wp_nowIso]
  intro now
  rw [wp_bind, wp_select, wp_bind, wp_orThrow]
  intro row found
  rw [wp_bind, wp_throwIf]
  intro _
  rw [wp_bind, wp_select, wp_bind, wp_select]
  apply wp_keeps (reads_isDependentSatisfied.keeps : Keeps (Quiet f) _)
  intro satisfied mid (read : Quiet f db mid)
  rw [wp_bind, wp_throwIf]
  intro _
  rw [wp_bind, wp_throwIf, Bool.not_eq_eq_eq_not, Bool.not_false]
  intro can
  rw [canTriage can, wp_bind]
  apply wp_taskTo f .ready rfl taskUpdated_other
  intro moved quiet
  refine wp_within (Quiet f) (keeps_bind keeps_select fun _ => keeps_orThrow) ?_
  exact fun _ db' later => read.thenMakes ((makes_afterTask.quiet quiet).quiet later)

/-- Unlocked dependents leave the backlog. -/
theorem wp_unlockDownstream {completedTaskId : String} {db : Database} :
    wp (unlockDownstream completedTaskId) (fun _ db' => ∃ unlocked,
      board db' = (board db).unlock unlocked ∧ db'.ingests = db.ingests ∧ LeasesStep f db db' ∧
        Appends f db db') db := by
  unfold unlockDownstream
  rw [wp_bind, wp_select, wp_bind, wp_select, wp_bind, wp_select, wp_bind, wp_nowIso]
  intro now
  apply wp_forM
  · rintro dependentId _ mid ⟨unlocked, boarded, ingests, leases, events⟩
    have stays : ∃ unlocked, board mid = (board db).unlock unlocked ∧ mid.ingests = db.ingests ∧
        LeasesStep f db mid ∧ Appends f db mid := ⟨unlocked, boarded, ingests, leases, events⟩
    rw [wp_bind, wp_select]
    split
    · exact stays
    · split
      · exact stays
      · apply wp_keeps (reads_isDependentSatisfied.keeps : Keeps (Quiet f) _)
        intro satisfied mid' (read : Quiet f mid mid')
        have carried : ∀ {m : Move} {db' : Database}, Makes f m mid db' →
            db'.ingests = db.ingests ∧ LeasesStep f db db' ∧ Appends f db db' := fun makes =>
          ⟨makes.ingests.trans ingests, leases.trans makes.leases, events.trans makes.events⟩
        split
        · rw [wp_bind]
          apply wp_taskTo f .ready rfl
          · intro spec member
            rcases List.mem_cons.mp member with rfl | member
            · exact (by decide : EventType.dagNodeReady ∉ lifecycleEvents)
            · rw [List.mem_singleton.mp member]
              exact (by decide : EventType.taskUpdated ∉ lifecycleEvents)
          · intro moved quiet
            have makes : Makes f (.task dependentId .backlog .ready) mid moved :=
              read.thenMakes (makes_afterTask.quiet quiet)
            refine ⟨unlocked ++ [dependentId], ?_, carried makes⟩
            rw [makes.board, boarded, Board.unlock, Board.unlock, List.foldl_append]
            rfl
        · exact ⟨unlocked, read.board.trans boarded, carried read.makes⟩
  · exact ⟨[], rfl, rfl, .of_eq rfl, .of_eq rfl⟩

theorem keeps_completeGoal {spec : Option EventSpec} : Keeps (Quiet f) (completeGoal spec) := by
  unfold completeGoal
  split
  · exact keeps_done
  · exact keeps_bind (keeps_logOther .goalCompleted rfl (by decide)) fun _ => keeps_done

theorem reviewEvents_other {task : TaskRow} {outcome : ReviewOutcome} {comment : Option String}
    {artifactIds : List String} {target : TaskStatus} :
    ∀ spec ∈ reviewEvents ctx task outcome comment artifactIds target, spec.type ∉ lifecycleEvents := by
  intro spec member
  rcases List.mem_cons.mp member with rfl | member
  · exact (by decide : EventType.reviewCompleted ∉ lifecycleEvents)
  · rw [List.mem_singleton.mp member]
    exact (by decide : EventType.taskUpdated ∉ lifecycleEvents)

theorem wp_reviewTask {services : ReviewServices} {taskId : String} {outcome : ReviewOutcome}
    {comment : Option String} {db : Database} :
    wp (reviewTask ctx services taskId outcome comment) (fun _ db' =>
      (outcome = .accepted ∧ ∃ unlocked, Makes f (.accept taskId unlocked) db db') ∨
        (outcome = .changesRequested ∧ Makes f (.task taskId .review .ready) db db')) db := by
  unfold reviewTask
  rw [wp_bind, wp_nowIso]
  intro now
  apply wp_keeps (reads_lockTask.keeps : Keeps (Quiet f) _)
  intro tasks mid (read : Quiet f db mid)
  rw [wp_bind, wp_orThrow]
  intro task found
  apply wp_keeps (reads_refuse.keeps : Keeps (Quiet f) _)
  intro _ mid' (fresh : Quiet f mid mid')
  rw [wp_bind, wp_throwIf]
  intro _
  cases outcome with
  | accepted =>
    dsimp only
    apply wp_keeps (reads_assertChildrenClosed.keeps : Keeps (Quiet f) _)
    intro _ mid'' (closed : Quiet f mid' mid'')
    rw [wp_bind, wp_select, wp_bind]
    apply wp_taskTo f .done rfl reviewEvents_other
    intro moved quiet
    rw [wp_bind, wp_throwIf]
    intro _
    apply wp_seq wp_unlockDownstream
    rintro _ after ⟨unlocked, boarded, ingests, leases, events⟩
    refine wp_within (Quiet f) (keeps_bind keeps_completeGoal fun _ => keeps_bind keeps_select
      fun _ => keeps_orThrow) ?_
    intro _ db' later
    have first : Makes f (.task taskId .review .done) db moved :=
      ((read.thenMakes (fresh.thenMakes (closed.thenMakes makes_afterTask)))).quiet quiet
    refine Or.inl ⟨rfl, unlocked, Makes.quiet ⟨?_, ingests.trans first.ingests,
      first.leases.trans leases, first.events.trans events⟩ later⟩
    rw [boarded, first.board]
    rfl
  | changesRequested =>
    dsimp only
    apply wp_keeps (reads_assertMayRetry.keeps : Keeps (Quiet f) _)
    intro _ allowed (may : Quiet f mid' allowed)
    apply wp_keeps (reads_assertChildrenClosed.keeps : Keeps (Quiet f) _)
    intro _ mid'' (closed : Quiet f allowed mid'')
    rw [wp_bind, wp_select, wp_bind]
    apply wp_taskTo f .ready rfl reviewEvents_other
    intro moved quiet
    rw [wp_bind, wp_throwIf]
    intro _
    refine wp_within (Quiet f) (keeps_bind keeps_select fun _ => keeps_orThrow) ?_
    intro _ db' later
    refine Or.inr ⟨rfl, Makes.quiet ?_ later⟩
    exact (read.thenMakes (fresh.thenMakes (may.thenMakes (closed.thenMakes makes_afterTask)))).quiet
      quiet

theorem wp_retryTask {services : ReviewServices} {taskId : String} {db : Database} :
    wp (retryTask ctx services taskId)
      (fun _ db' => Makes f (.task taskId .blocked .ready) db db') db := by
  unfold retryTask
  rw [wp_bind, wp_nowIso]
  intro now
  rw [wp_bind, wp_select, wp_bind, wp_orThrow]
  intro task found
  rw [wp_bind, wp_throwIf, Bool.not_eq_eq_eq_not, Bool.not_false]
  intro can
  apply wp_keeps (reads_assertMayRetry.keeps : Keeps (Quiet f) _)
  intro _ mid (read : Quiet f db mid)
  rw [canRetry can, wp_bind]
  apply wp_taskTo f .ready rfl taskUpdated_other
  intro moved quiet
  refine wp_within (Quiet f) (keeps_bind keeps_select fun _ => keeps_orThrow) ?_
  exact fun _ db' later => read.thenMakes ((makes_afterTask.quiet quiet).quiet later)

/-! ## Approvals -/

theorem keeps_updateApproval {id : String} {set : ApprovalRow → ApprovalRow} :
    Keeps (Quiet f) (updateApproval id set) := keeps_update (by intro _; trivial)

theorem keeps_setBlocker {id : String} {set : BlockerRow → BlockerRow} :
    Keeps (Quiet f) (setBlocker id set) := by
  unfold setBlocker
  exact keeps_bind (keeps_update (by intro _; trivial)) fun _ => keeps_done

theorem keeps_relinkBlockers {prior : List ApprovalRow} {id now : String} :
    Keeps (Quiet f) (relinkBlockers prior id now) := by
  unfold relinkBlockers
  split
  · exact keeps_done
  · apply keeps_bind keeps_selectForUpdate
    intro linked
    exact keeps_bind (keeps_forM fun _ _ => keeps_setBlocker) fun _ => keeps_done

theorem keeps_resolveGateBlockers {approvalId now : String} :
    Keeps (Quiet f) (resolveGateBlockers approvalId now) := by
  unfold resolveGateBlockers
  apply keeps_bind keeps_selectForUpdate
  intro linked
  apply keeps_forM
  intro b _
  apply keeps_bind keeps_setBlocker
  intro _
  exact keeps_bind (keeps_logOther .blockerResolved rfl (by decide)) fun _ => keeps_done

theorem wp_requestApproval {params : RequestApprovalParams} {db : Database} :
    wp (requestApproval params)
      (fun _ db' => Makes f (.task params.taskId .running .awaitingApproval) db db') db := by
  unfold requestApproval
  rw [wp_bind, wp_nowIso]
  intro now
  rw [wp_bind, wp_select, wp_bind, wp_orThrow]
  intro task found
  rw [wp_bind, wp_throwIf]
  intro _
  rw [wp_bind, wp_generate]
  intro id
  apply wp_keeps (keeps_insert (by trivial))
  intro _ mid (inserted : Quiet f db mid)
  rw [wp_bind]
  apply wp_taskTo f .awaitingApproval rfl
  · intro spec member
    rw [List.mem_singleton.mp member]
    exact (by decide : EventType.approvalRequested ∉ lifecycleEvents)
  · intro moved quiet
    refine wp_within (Quiet f) (keeps_bind keeps_throwIf fun _ => keeps_bind keeps_select
      fun _ => keeps_orThrow) ?_
    exact fun _ db' later => inserted.thenMakes ((makes_afterTask.quiet quiet).quiet later)

theorem keeps_requestExecutionApproval {taskId rawSummary : String} {risk : Risk} :
    Keeps (Quiet f) (requestExecutionApproval ctx taskId rawSummary risk) := by
  unfold requestExecutionApproval
  apply keeps_bind keeps_throwIf
  intro _
  apply keeps_bind reads_lockTask.keeps
  intro tasks
  apply keeps_bind keeps_orThrow
  intro task
  apply keeps_bind keeps_throwIf
  intro _
  apply keeps_bind keeps_select
  intro prior
  apply keeps_bind keeps_generate
  intro id
  apply keeps_bind keeps_nowIso
  intro now
  apply keeps_bind (keeps_forM fun _ _ => keeps_bind keeps_updateApproval fun _ => keeps_done)
  intro _
  apply keeps_bind (keeps_insert (by trivial))
  intro _
  apply keeps_bind keeps_relinkBlockers
  intro relinked
  apply keeps_bind (keeps_logOther .approvalRequested rfl (by decide))
  intro _
  exact keeps_bind keeps_select fun _ => keeps_orThrow

/-- The move of a decision: none for a gate, along the task's edge otherwise. -/
def decisionMove (approval : ApprovalRow) : Decision → Move
  | .approved => if isGate approval then .idle else .task approval.taskId .awaitingApproval .running
  | .rejected => if isGate approval then .idle else .task approval.taskId .awaitingApproval .blocked
  | .needsMoreInfo => .idle

theorem wp_decideTask {taskId now : String} {decision : Decision} {db : Database} :
    wp (decideTask taskId decision now) (fun _ db' =>
      Makes f (.task taskId .awaitingApproval (if decision == .approved then .running else .blocked))
        db db') db := by
  unfold decideTask
  rw [wp_bind]
  cases decision <;>
    · apply wp_taskTo f _ rfl (by simp)
      intro moved quiet
      rw [wp_throwIf]
      exact fun _ => makes_afterTask.quiet quiet

theorem wp_resolveApproval {approvalId : String} {req : ResolveApprovalRequest} {db : Database} :
    wp (resolveApproval ctx approvalId req) (fun _ db' => ∃ approval,
      db.approvals.get? approvalId = some approval ∧
        (applyApprovalTransition approval.status req.decision.trigger).isSome ∧
          Makes f (decisionMove approval req.decision) db db') db := by
  unfold resolveApproval lockTask
  rw [wp_bind, wp_nowIso]
  intro now
  rw [wp_bind, wp_select, wp_bind, wp_orThrow]
  intro initial foundInitial
  rw [wp_bind, wp_selectForUpdate, wp_bind, wp_orThrow]
  intro task foundTask
  rw [wp_bind, wp_selectForUpdate, wp_bind, wp_orThrow]
  intro approval foundApproval
  have found : db.approvals.get? approvalId = some approval := by simpa using foundApproval
  rw [wp_bind, wp_throwIf]
  intro _
  rw [wp_bind, wp_orThrow]
  intro target edge
  rw [wp_bind, wp_throwIf]
  intro _
  apply wp_keeps keeps_updateApproval
  intro _ mid (updated : Quiet f db mid)
  have stored : Keeps (Quiet f) (do
      let stored ← select (·.approvals.get? approvalId)
      orThrow stored (.error "resolveApproval: approval missing after update")) :=
    keeps_bind keeps_select fun _ => keeps_orThrow
  have logged : Keeps (Quiet f) (do
      let _ ← logEvent (resolvedEvent ctx task approval req)
      if isGate approval && req.decision.settles then resolveGateBlockers approvalId now
      let stored ← select (·.approvals.get? approvalId)
      orThrow stored (.error "resolveApproval: approval missing after update")) := by
    apply keeps_bind (keeps_logOther .approvalResolved rfl (by decide))
    intro _
    dsimp only
    split
    · exact keeps_bind keeps_resolveGateBlockers fun _ => stored
    · exact stored
  by_cases drives : (!isGate approval && req.decision.settles) = true
  · dsimp only
    rw [if_pos drives]
    apply wp_seq wp_decideTask
    intro _ moved makes
    refine wp_within (Quiet f) logged ?_
    intro _ db' later
    refine ⟨approval, found, by rw [edge]; rfl, ?_⟩
    have all := updated.thenMakes (makes.quiet later)
    simp only [Bool.and_eq_true, Bool.not_eq_true'] at drives
    cases decision : req.decision with
    | approved => simpa [decisionMove, drives.1, decision] using all
    | rejected => simpa [decisionMove, drives.1, decision] using all
    | needsMoreInfo =>
      rw [decision] at drives
      cases drives.2
  · dsimp only
    rw [if_neg drives]
    refine wp_within (Quiet f) logged ?_
    intro _ db' later
    refine ⟨approval, found, by rw [edge]; rfl, ?_⟩
    have all : Makes f .idle db db' := updated.thenMakes later.makes
    simp only [Bool.and_eq_true, Bool.not_eq_true', not_and] at drives
    cases decision : req.decision with
    | approved =>
      cases gate : isGate approval with
      | true => simpa [decisionMove, gate] using all
      | false => simp [gate, decision, Decision.settles] at drives
    | rejected =>
      cases gate : isGate approval with
      | true => simpa [decisionMove, gate] using all
      | false => simp [gate, decision, Decision.settles] at drives
    | needsMoreInfo => exact all

/-! ## Assignment -/

theorem wp_assertAssignable (f : Effect) {services : AssignServices} {task : TaskRow} {req : AssignRequest}
    {assistantTurnId : Option String} {db : Database} :
    wp (assertAssignable services task req assistantTurnId)
      (fun _ db' => Quiet f db db' ∧ task.status = .ready) db := by
  apply wp_and (reads_assertAssignable.keeps db)
  unfold assertAssignable
  rw [wp_bind, wp_throwIf]
  intro ready
  exact wp_mono wp_trivial fun _ _ _ => by simpa using ready

/-- The assignee is no part of the board. -/
theorem makes_assignee {m : Move} {taskId : String} {agentId now : String} {a db : Database}
    (first : Makes f m a db) :
    Makes f m a (writeAll ((db.tasks.get? taskId).toList.map fun row =>
      Write.task { row with assigneeId := agentId, updatedAt := now }) db) := by
  cases found : db.tasks.get? taskId with
  | none => exact first
  | some row =>
    refine ⟨?_, first.ingests, first.leases, first.events⟩
    rw [← first.board]
    unfold Server.board
    congr 1
    funext id
    change ((db.tasks.put { row with assigneeId := agentId, updatedAt := now }).get? id).map _ = _
    rw [Table.get?_put]
    split
    · rename_i hit
      rw [← hit, Table.key_of_get? found, found]
      rfl
    · rfl

theorem wp_assignTask {services : AssignServices} {taskId : String} {req : AssignRequest}
    {assistantTurnId : Option String} {db : Database} (expired : ∀ l, f.expired l) :
    wp (assignTask ctx services taskId req assistantTurnId) (fun _ db' => ∃ runId view,
      (board db).task taskId = some .ready ∧ (board db).run runId = none ∧
        view.taskId = taskId ∧ view.status = .queued ∧
        Makes f (.assign taskId runId view) db db') db := by
  unfold assignTask lockTask
  rw [wp_bind, wp_nowIso]
  intro now
  apply wp_keeps (reads_refuse.keeps : Keeps (Quiet f) _)
  intro _ locked (shared : Quiet f db locked)
  rw [wp_bind, wp_selectForUpdate, wp_bind, wp_orThrow]
  intro task foundTask
  have found : locked.tasks.get? taskId = some task := by simpa using foundTask
  apply wp_seq (wp_assertAssignable f)
  rintro writePaths checked ⟨assignable, ready⟩
  have boarded : board checked = board db := assignable.board.trans shared.board
  have readyTask : (board db).task taskId = some .ready := by
    rw [← shared.board, board_task found, ready]
  apply wp_keeps (reads_ofExcept.keeps : Keeps (Quiet f) _)
  intro selected mid (scheduled : Quiet f checked mid)
  apply wp_keeps (reads_lockInstance.keeps : Keeps (Quiet f) _)
  intro _ mid' (instanced : Quiet f mid mid')
  apply wp_keeps (reads_refuse.keeps : Keeps (Quiet f) _)
  intro _ before (rechecked : Quiet f mid' before)
  rw [wp_bind, wp_generate]
  intro decisionId
  rw [wp_bind, wp_generate]
  intro runId
  rw [wp_bind]
  apply wp_taskTo f .assigned rfl (by simp)
  intro moved quiet
  have first : Makes f (.task taskId .ready .assigned) db moved :=
    (shared.thenMakes (assignable.thenMakes (scheduled.thenMakes (instanced.thenMakes
      (rechecked.thenMakes makes_afterTask))))).quiet quiet
  have runs : moved.runs = db.runs :=
    quiet.runs.trans (rechecked.runs.trans (instanced.runs.trans (scheduled.runs.trans
      (assignable.runs.trans shared.runs))))
  rw [wp_bind, wp_throwIf]
  intro _
  apply wp_keeps (reads_ofExcept.keeps : Keeps (Quiet f) _)
  intro workspaceRoot rooted (placed : Quiet f moved rooted)
  apply wp_keeps (reads_refuse.keeps : Keeps (Quiet f) _)
  intro _ packed (context : Quiet f rooted packed)
  unfold insertRun
  rw [wp_bind, wp_insert, Option.isSome_eq_false_iff, Option.isNone_iff_eq_none]
  intro fresh
  have absent : (board db).run runId = none := by
    change (db.runs.get? runId).map _ = none
    rw [← runs, ← placed.runs, ← context.runs, fresh]
    rfl
  apply wp_keeps keeps_bindExecutionApprovalToRun
  intro _ bound (gated : Quiet f _ bound)
  have finish : ∀ mid, Quiet f bound mid → wp (do
      let _ ← reserveRunLeases ctx { taskId, runId, projectId := task.projectId, paths := writePaths }
      let _ ← update (fun db => (db.tasks.get? taskId).toList) fun row =>
        .task { row with assigneeId := selected.agentId, updatedAt := now }
      let _ ← logEvent (assignedEvent task selected runId decisionId)
      let stored ← select (·.runs.get? runId)
      orThrow stored (.error "assignTask: run missing after insert"))
      (fun _ db' => ∃ runId view, (board db).task taskId = some .ready ∧
        (board db).run runId = none ∧ view.taskId = taskId ∧ view.status = .queued ∧
        Makes f (.assign taskId runId view) db db') mid := by
    intro mid turned
    apply wp_keeps (keeps_reserveRunLeases expired)
    intro _ reserved (leased : Quiet f mid reserved)
    rw [wp_bind, wp_update]
    refine wp_within (Quiet f) (keeps_bind (keeps_logOther .taskAssigned rfl (by decide))
      fun _ => keeps_bind keeps_select fun _ => keeps_orThrow) ?_
    intro _ db' later
    refine ⟨runId, _, readyTask, absent, ?_, ?_, (makes_assignee ((((makes_insertRun
      ((first.quiet placed).quiet context)).quiet gated).quiet turned).quiet leased)).quiet later⟩
    · rfl
    · rfl
  cases assistantTurnId with
  | none => exact finish bound (Std.Refl.refl bound)
  | some turnId =>
    apply wp_keeps keeps_startTurn
    exact fun _ => finish

/-! ## Leases and conversations -/

theorem keeps_acquireLease {req : AcquireLeaseRequest} (expired : ∀ l, f.expired l) :
    Keeps (Quiet f) (acquireLease ctx req) := by
  unfold acquireLease
  apply keeps_bind keeps_nowIso
  intro now
  apply keeps_bind keeps_select
  intro found
  apply keeps_bind keeps_orThrow
  intro task
  split
  · exact keeps_fail
  · intro db
    rw [wp_bind, wp_select]
    apply wp_seq (wp_expireStaleLeases expired)
    intro _ mid (swept : Quiet f db mid)
    refine wp_within (Quiet f) ?_ fun _ _ later => IsTrans.trans _ _ _ swept later
    dsimp only
    split
    · exact keeps_done
    · split
      · exact keeps_fail
      · apply keeps_bind keeps_generate
        intro id
        apply keeps_bind
        · unfold storeTimestamp
          split
          · exact keeps_done
          · exact keeps_bind keeps_orThrow fun _ => keeps_done
        intro expiresAt
        apply keeps_bind keeps_insertLease
        intro _
        apply keeps_bind (keeps_logOther .leaseAcquired rfl (by decide))
        intro _
        exact keeps_bind keeps_select fun _ => keeps_orThrow

theorem keeps_releaseLease {leaseId : String} (released : ∀ l, l.id = leaseId → f.released l) :
    Keeps (Quiet f) (releaseLease leaseId) := by
  intro db
  unfold releaseLease
  rw [wp_bind, wp_nowIso]
  intro now
  rw [wp_bind, wp_select, wp_bind, wp_orThrow]
  intro lease found
  have stored : Keeps (Quiet f) (do
      let stored ← select (·.leases.get? leaseId)
      orThrow stored (.error "releaseLease: row missing after update")) :=
    keeps_bind keeps_select fun _ => keeps_orThrow
  dsimp only
  split
  · rename_i held
    have current : db.leases.get? lease.id = some lease := by rw [Table.key_of_get? found, found]
    apply wp_seq (wp_releaseRow current (by simpa using held) (released lease (Table.key_of_get? found)))
    rintro _ mid ⟨quiet, _⟩
    exact wp_mono (stored mid) fun _ _ later => IsTrans.trans _ _ _ quiet later
  · exact stored db

theorem keeps_listLeases {projectId : String} {status : Option LeaseStatus}
    (expired : ∀ l, f.expired l) : Keeps (Quiet f) (listLeases projectId status) := by
  intro db
  unfold listLeases
  rw [wp_bind, wp_select, wp_bind, wp_nowIso]
  intro now
  exact wp_seq (wp_expireStaleLeases expired) fun _ _ swept => swept

theorem wp_followUpTask {room : Conversation} {original : Option TaskRow} {body now : String}
    {db : Database} :
    wp (followUpTask ctx room original body now) (fun _ db' => ∃ taskId,
      (board db).task taskId = none ∧ Makes f (.create taskId) db db') db := by
  unfold followUpTask
  have policy : Keeps (Quiet f) (original.mapM resolveExecutionPolicyTask) := by
    cases original with
    | none => exact keeps_done
    | some task => exact keeps_bind reads_followPolicy.keeps fun _ => keeps_done
  apply wp_keeps policy
  intro policyTask mid (read : Quiet f db mid)
  rw [wp_bind, wp_generate]
  intro id
  rw [wp_bind, wp_insertTask]
  intro fresh
  refine wp_within (Quiet f) ?_ ?_
  · apply keeps_bind (keeps_logOther .taskCreated rfl (by decide))
    intro _
    apply keeps_bind keeps_select
    intro inherited
    split
    · exact keeps_done
    · apply keeps_bind keeps_generate
      intro approvalId
      apply keeps_bind (keeps_insert (by trivial))
      intro _
      exact keeps_bind (keeps_logOther .approvalRequested rfl (by decide)) fun _ => keeps_done
  · intro _ db' later
    refine ⟨id, ?_, read.thenMakes ((makes_insertTask rfl).quiet later)⟩
    rw [← read.board]
    change (mid.tasks.get? id).map _ = none
    rw [fresh]
    rfl

theorem wp_enqueueAssistantTurn {room : Conversation} {threadRootId : Option String}
    {body : String} {db : Database} :
    wp (enqueueAssistantTurn ctx room threadRootId body) (fun _ db' => Makes f .idle db db' ∨
      ∃ taskId, (board db).task taskId = none ∧ Makes f (.create taskId) db db') db := by
  unfold enqueueAssistantTurn
  apply wp_keeps (reads_refuse.keeps : Keeps (Quiet f) _)
  intro _ mid (refused : Quiet f db mid)
  rw [wp_bind, wp_select, wp_bind, wp_nowIso]
  intro now
  have finish : ∀ task : TaskRow, Keeps (Quiet f) (do
      let id ← generate
      let messageId ← generate
      insertMessage
        { id := messageId, roomId := room.roomId, taskId := task.id, runId := none, threadRootId,
          actorType := .user, actorId := ctx.actorUserId, kind := "text", body,
          payload := [("assistant_turn_id", .str id), ("intent", .str "assistant")], createdAt := now }
      let turn : TurnRow :=
        { id, roomId := room.roomId, threadRootId, taskId := task.id, responseMessageId := none,
          runId := none, status := .queued, error := none, updatedAt := now }
      insert (fun db => (db.turns.get? id).isSome) (.turn turn)
      let _ ← logEvent
        { type := .messageCreated, actorType := .user, actorId := ctx.actorUserId, correlationId := id,
          projectId := room.projectId, taskId := task.id, roomId := room.roomId,
          payload := [("message_id", .str messageId), ("kind", .str "text")] }
      return turn) := by
    intro task
    apply keeps_bind keeps_generate
    intro id
    apply keeps_bind keeps_generate
    intro messageId
    apply keeps_bind (keeps_insert (by trivial))
    intro _
    apply keeps_bind (keeps_insert (by trivial))
    intro _
    exact keeps_bind (keeps_logOther .messageCreated rfl (by decide)) fun _ => keeps_done
  dsimp only
  split
  · exact wp_mono (finish _ mid) fun _ _ later => Or.inl (refused.thenMakes later.makes)
  · apply wp_seq wp_followUpTask
    rintro task opened ⟨taskId, absent, created⟩
    refine wp_mono (finish task opened) fun _ _ later => Or.inr ⟨taskId, ?_, ?_⟩
    · rw [← refused.board]
      exact absent
    · exact refused.thenMakes (created.quiet later)

end Artoo.Server
