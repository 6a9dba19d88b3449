import Artoo.Server.Lifecycle

/-! Parts of the server's transactions that only read. -/
namespace Artoo.Server
open Artoo.Lib Artoo.Protocol Artoo.Domain Tx

theorem reads_unconfirmed {p : RunRow → TaskRow → Bool} :
    Reads (unconfirmedDisconnectRunIds p) := by
  unfold unconfirmedDisconnectRunIds
  apply writes_bind writes_select
  intro candidates
  split
  · exact writes_done
  · exact writes_bind writes_select fun _ => writes_done

theorem reads_refuse {refused : Option Failure} : Reads (refuse refused) := by
  unfold refuse
  split
  · exact writes_fail
  · exact writes_done

theorem reads_ofExcept {α : Type} {x : Except Failure α} : Reads (ofExcept x) := by
  unfold ofExcept
  split
  · exact writes_done
  · exact writes_fail

theorem reads_isDependentSatisfied {incoming : List DependencyRow}
    {statusById : String → Option TaskStatus} :
    Reads (isDependentSatisfied incoming statusById) := by
  unfold isDependentSatisfied
  split
  · exact writes_done
  · exact writes_select

theorem reads_followPolicy {task current : TaskRow} {links : Nat} {visited : List String} :
    Reads (followPolicy task links visited current) := by
  induction links generalizing visited current with
  | zero =>
    unfold followPolicy
    split
    · exact writes_done
    · exact writes_fail
    · rename_i impossible
      cases impossible
  | succ links ih =>
    unfold followPolicy
    split
    · exact writes_done
    · rename_i impossible
      cases impossible
    · rename_i parentId rest _ same
      cases same
      split
      · exact writes_fail
      · apply writes_bind writes_select
        intro found
        apply writes_bind writes_orThrow
        intro parent
        exact writes_bind writes_throwIf fun _ => ih

theorem reads_executionPolicySources {task policyTask : TaskRow} :
    Reads (executionPolicySources task policyTask) := by
  unfold executionPolicySources
  split
  · apply writes_bind writes_select
    intro found
    apply writes_bind writes_orThrow
    intro parent
    apply writes_bind writes_throwIf
    intro _
    apply writes_bind reads_followPolicy
    intro policy
    exact writes_bind writes_throwIf fun _ => writes_done
  · exact writes_done

theorem reads_assertInheritedApprovalRequired {task policyTask : TaskRow} :
    Reads (assertInheritedApprovalRequired task policyTask) := by
  unfold assertInheritedApprovalRequired
  split
  · exact writes_done
  · apply writes_bind reads_executionPolicySources
    intro sources
    apply writes_bind writes_select
    intro inherited
    split
    · exact writes_done
    · exact writes_bind writes_select fun _ => writes_throwIf

theorem reads_assertExecutionApprovalGranted {taskId : String} :
    Reads (assertExecutionApprovalGranted taskId) := by
  unfold assertExecutionApprovalGranted
  exact writes_bind writes_select fun _ => writes_throwIf

theorem reads_claimTurn {taskId turnId : String} : Reads (claimTurn taskId turnId) := by
  unfold claimTurn
  apply writes_bind writes_selectForUpdate
  intro turns
  apply writes_bind writes_orThrow
  intro turn
  apply writes_bind writes_throwIf
  intro _
  exact writes_bind writes_select fun _ => writes_throwIf

theorem reads_assertMayRetry {services : ReviewServices} {task : TaskRow} :
    Reads (assertMayRetry services task) := by
  unfold assertMayRetry
  apply writes_bind reads_followPolicy
  intro policyTask
  exact writes_bind reads_refuse fun _ => reads_refuse

theorem reads_assertChildrenClosed {taskId : String} {outcome : ReviewOutcome} :
    Reads (assertChildrenClosed taskId outcome) := by
  unfold assertChildrenClosed
  exact writes_bind writes_select fun _ => writes_throwIf

theorem reads_lockTask {taskId : String} : Reads (lockTask taskId) := writes_selectForUpdate

theorem reads_lockInstance {id : String} : Reads (lockInstance id) :=
  fun _ => ⟨fun _ written => absurd written List.not_mem_nil, trivial⟩

theorem reads_assertAssignable {services : AssignServices} {task : TaskRow} {req : AssignRequest}
    {assistantTurnId : Option String} :
    Reads (assertAssignable services task req assistantTurnId) := by
  unfold assertAssignable
  apply writes_bind writes_throwIf
  intro _
  have rest : ∀ last : Txn (List String), Reads last → Reads (do
      let policyTask ← resolveExecutionPolicyTask task
      refuse (services.executionRefused policyTask)
      let unconfirmed ← unconfirmedDisconnectRunIds fun r _ => r.taskId == task.id
      throwIf (!unconfirmed.isEmpty) (.app (.conflict
        "execution node has not confirmed the previous process stopped; reconnect it before assigning this task again"))
      refuse (services.controlsRefused policyTask)
      assertInheritedApprovalRequired task policyTask
      assertExecutionApprovalGranted task.id
      last) := by
    intro last kept
    apply writes_bind reads_followPolicy
    intro policyTask
    apply writes_bind reads_refuse
    intro _
    apply writes_bind reads_unconfirmed
    intro unconfirmed
    apply writes_bind writes_throwIf
    intro _
    apply writes_bind reads_refuse
    intro _
    apply writes_bind reads_assertInheritedApprovalRequired
    intro _
    exact writes_bind reads_assertExecutionApprovalGranted fun _ => kept
  cases assistantTurnId with
  | none =>
    apply rest
    split
    · exact writes_done
    · split
      · exact reads_ofExcept
      · exact writes_done
  | some turnId =>
    apply writes_bind reads_claimTurn
    intro _
    apply rest
    split
    · exact writes_done
    · split
      · exact reads_ofExcept
      · exact writes_done

end Artoo.Server
