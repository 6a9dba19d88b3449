import Artoo.Server.Run

/-! The events of a run but its artifacts and its retained workspace: their transactions write to
neither the integration queue nor the artifacts, and report no retention. -/
namespace Artoo.Server
open Artoo.Lib Artoo.Protocol Artoo.Domain Tx

def queueOf : Write → Option QueueRow
  | .queue row => some row
  | _ => none

def artifactOf : Write → Option ArtifactRow
  | .artifact row => some row
  | _ => none

/-- Of other tables. -/
def Elsewhere (_ : Database) (w : Write) : Prop := queueOf w = none ∧ artifactOf w = none

/-- No report of a retained workspace. -/
def Unreported (view : Database) : Write → Prop
  | .event e => e.type ≠ .runWorkspaceRetained ∧
      ∀ old, view.events.get? e.id = some old → old.type ≠ .runWorkspaceRetained
  | _ => True

structure Ordinary (view : Database) (w : Write) : Prop where
  elsewhere : Elsewhere view w
  unreported : Unreported view w

theorem ordinary_logEvent {spec : EventSpec} (type : spec.type ≠ .runWorkspaceRetained) :
    Writes Ordinary (logEvent spec) := by
  apply writes_logRow
  intro view id occurredAt fresh
  refine ⟨⟨rfl, rfl⟩, type, fun old there => ?_⟩
  cases fresh.symm.trans there

theorem ordinary_transitionTask {taskId now : String} {source : TaskStatus} {trigger : TaskTrigger}
    {events : TaskStatus → List EventSpec}
    (types : ∀ target, ∀ spec ∈ events target, spec.type ≠ .runWorkspaceRetained) :
    Writes Ordinary (transitionTask taskId source trigger now events) := by
  apply writes_transitionRows fun _ _ => ⟨⟨rfl, rfl⟩, trivial⟩
  intro target spec member view id occurredAt fresh
  refine ⟨⟨rfl, rfl⟩, types target spec member, fun old there => ?_⟩
  cases fresh.symm.trans there

theorem ordinary_moveTask {taskId now : String} {source : TaskStatus} {trigger : TaskTrigger} :
    Writes Ordinary (transitionTask taskId source trigger now) :=
  ordinary_transitionTask fun _ _ member => absurd member List.not_mem_nil

theorem ordinary_transitionRun {runId : String} {source : RunStatus} {trigger : RunTrigger}
    {patch : RunPatch} : Writes Ordinary (transitionRun runId source trigger patch) := by
  unfold transitionRun
  apply writes_bind writes_orThrow
  intro target
  exact writes_bind (writes_update fun _ _ _ => ⟨⟨rfl, rfl⟩, trivial⟩) fun _ => writes_done

theorem ordinary_releaseRunLeases {runId : String} : Writes Ordinary (releaseRunLeases runId) := by
  unfold releaseRunLeases
  apply writes_bind writes_nowIso
  intro now
  apply writes_bind writes_select
  intro held
  apply writes_forM
  intro lease _
  unfold releaseRow updateLease
  apply writes_bind (writes_update fun _ _ _ => ⟨⟨rfl, rfl⟩, trivial⟩)
  intro _
  exact writes_bind (ordinary_logEvent nofun) fun _ => writes_done

theorem ordinary_propagateBlocked {taskId reason : String} :
    Writes Ordinary (propagateBlocked taskId reason) := by
  unfold propagateBlocked
  apply writes_bind writes_select
  intro downstreamIds
  apply writes_forM
  intro dependentId _
  apply writes_bind writes_select
  intro found
  cases found with
  | none => exact writes_done
  | some dependent =>
    dsimp only
    split
    · exact writes_bind (ordinary_logEvent nofun) fun _ => writes_done
    · exact writes_done

theorem ordinary_insertMessage {row : MessageRow} : Writes Ordinary (insertMessage row) :=
  writes_insert fun _ _ => ⟨⟨rfl, rfl⟩, trivial⟩

theorem ordinary_emit {s : IngestScope} {type : EventType} {payload : Payload}
    {message : Option EmitMessage} (other : type ≠ .runWorkspaceRetained) :
    Writes Ordinary (emit s type payload message) := by
  unfold emit
  apply writes_bind (ordinary_logEvent other)
  intro event
  apply writes_bind
  · unfold emitMessage
    split
    · exact writes_bind writes_generate fun _ => ordinary_insertMessage
    · exact writes_done
  · exact fun _ => writes_done

theorem ordinary_ingestLifecycle {s : IngestScope} {phase : IngestPhase}
    {failureReason : Option String} : Writes Ordinary (ingestLifecycle s phase failureReason) := by
  have enlists : ∀ {eventId : String}, Writes Ordinary (do
      releaseRunLeases s.env.runId
      return eventId : Txn String) :=
    writes_bind ordinary_releaseRunLeases fun _ => writes_done
  unfold ingestLifecycle
  split
  · exact writes_bind (ordinary_emit nofun) fun _ => enlists
  · split
    · exact ordinary_emit nofun
    · cases phase with
      | started =>
        apply writes_bind ordinary_transitionRun
        intro _
        apply writes_bind ordinary_transitionRun
        intro _
        exact writes_bind ordinary_moveTask fun _ => ordinary_emit nofun
      | completed =>
        apply writes_bind ordinary_transitionRun
        intro _
        apply writes_bind ordinary_moveTask
        intro _
        exact writes_bind (ordinary_emit nofun) fun _ => enlists
      | failed =>
        dsimp only
        split
        · apply writes_bind ordinary_transitionRun
          intro _
          apply writes_bind ordinary_transitionRun
          intro _
          apply writes_bind ordinary_moveTask
          intro _
          exact writes_bind (ordinary_emit nofun) fun _ => enlists
        · apply writes_bind ordinary_transitionRun
          intro _
          apply writes_bind ordinary_moveTask
          intro blocked
          refine writes_bind (ordinary_emit ?_) fun _ => ?_
          · exact nofun
          apply writes_bind ordinary_releaseRunLeases
          intro _
          dsimp only
          split
          · exact writes_bind ordinary_propagateBlocked fun _ => writes_done
          · exact writes_done
      | cancelled =>
        unfold ingestCancelled
        apply writes_bind ordinary_transitionRun
        intro _
        dsimp only
        split
        · have types : ∀ target, ∀ spec ∈ runCancelledUpdate s target,
              spec.type ≠ .runWorkspaceRetained := by
            intro target spec member
            rw [List.mem_singleton.mp member]
            exact nofun
          apply writes_bind (ordinary_transitionTask types)
          intro _
          apply writes_bind ordinary_propagateBlocked
          intro _
          exact writes_bind (ordinary_emit nofun) fun _ => enlists
        · exact writes_bind (ordinary_emit nofun) fun _ => enlists

theorem ordinary_ingestAnswer {services : Services} {s : IngestScope} {text : String} :
    Writes Ordinary (ingestAnswer services s text) := by
  unfold ingestAnswer ingestAnswer.discard
  apply writes_bind writes_throwIf
  intro _
  apply writes_bind writes_selectForUpdate
  intro turns
  dsimp only
  split
  · exact ordinary_emit nofun
  · split
    · exact ordinary_emit nofun
    · apply writes_bind writes_generate
      intro messageId
      apply writes_bind ordinary_insertMessage
      intro _
      have answered : Writes Ordinary (answerTurn s messageId turns.head?) := by
        unfold answerTurn setTurn
        split
        · exact writes_bind (writes_update fun _ _ _ => ⟨⟨rfl, rfl⟩, trivial⟩) fun _ => writes_done
        · exact writes_done
      apply writes_bind answered
      intro _
      have replied : Writes Ordinary (replyToThread turns.head?) := by
        unfold replyToThread
        split
        · exact writes_done
        · apply writes_bind (writes_update fun _ _ _ => ⟨⟨rfl, rfl⟩, trivial⟩)
          intro updated
          split
          · exact writes_done
          · exact writes_fail
      apply writes_bind replied
      intro _
      exact writes_bind (ordinary_logEvent nofun) fun _ => writes_done

theorem ordinary_ingestUsage {s : IngestScope} {usage : RunUsagePayload} :
    Writes Ordinary (ingestUsage s usage) := by
  unfold ingestUsage
  apply writes_bind writes_throwIf
  intro _
  apply writes_bind (writes_update fun _ _ _ => ⟨⟨rfl, rfl⟩, trivial⟩)
  exact fun _ => ordinary_emit nofun

theorem elsewhere_applyRunEvent {ctx : Context} {services : Services} {s : IngestScope}
    {retention : Option StoredWorkspaceRetained}
    (other : ∀ type uri checksum, s.env.event ≠ .artifact type uri checksum) :
    Writes Elsewhere (applyRunEvent ctx services s retention) := by
  unfold applyRunEvent
  split
  · split
    · unfold ingestRetention
      apply writes_bind writes_select
      intro _
      apply writes_bind writes_throwIf
      intro _
      exact writes_bind (writes_logEvent fun _ _ => ⟨rfl, rfl⟩) fun _ => writes_done
    · exact writes_fail
  · exact ordinary_ingestLifecycle.mono fun _ _ => Ordinary.elsewhere
  · exact ordinary_ingestAnswer.mono fun _ _ => Ordinary.elsewhere
  · exact ordinary_ingestUsage.mono fun _ _ => Ordinary.elsewhere
  · have emits {payload : Payload} : Writes Ordinary (emit s .runOutput payload) := ordinary_emit nofun
    exact emits.mono fun _ _ => Ordinary.elsewhere
  · rename_i type uri checksum is
    exact absurd is (other type uri checksum)

theorem unreported_ingestArtifact {s : IngestScope} {type : ArtifactType} {uri : String}
    {checksum : Option String} : Writes Unreported (ingestArtifact s type uri checksum) := by
  have rest : ∀ artifactId, Writes Unreported (do
      let eventId ← emit s .artifactCreated [("artifact_id", .str artifactId),
        ("type", .str (artifactTypeName type)), ("uri", .str uri)]
        (some ⟨"artifact", "Artifact created: " ++ artifactTypeName type⟩)
      enqueueArtifactForIntegration s artifactId type
      return eventId) := by
    intro artifactId
    have emits {payload : Payload} {message : Option EmitMessage} :
        Writes Ordinary (emit s .artifactCreated payload message) := ordinary_emit nofun
    apply writes_bind (emits.mono fun _ _ => Ordinary.unreported)
    intro eventId
    refine writes_bind ?_ fun _ => writes_done
    unfold enqueueArtifactForIntegration
    split
    · exact writes_done
    · apply writes_bind writes_nowIso
      intro now
      apply writes_bind writes_select
      intro last
      exact writes_bind writes_generate fun id => writes_insert fun _ _ => trivial
  unfold ingestArtifact
  apply writes_bind writes_select
  intro stored
  apply writes_bind writes_throwIf
  intro _
  cases stored with
  | some artifact => exact rest artifact.id
  | none =>
    apply writes_bind writes_generate
    intro id
    exact writes_bind (writes_insert fun _ _ => trivial) fun _ => rest id

theorem unreported_applyRunEvent {ctx : Context} {services : Services} {s : IngestScope}
    {retention : Option StoredWorkspaceRetained}
    (other : ∀ report, s.env.event ≠ .workspaceRetained report) :
    Writes Unreported (applyRunEvent ctx services s retention) := by
  unfold applyRunEvent
  split
  · rename_i report is
    exact absurd is (other report)
  · exact ordinary_ingestLifecycle.mono fun _ _ => Ordinary.unreported
  · exact ordinary_ingestAnswer.mono fun _ _ => Ordinary.unreported
  · exact ordinary_ingestUsage.mono fun _ _ => Ordinary.unreported
  · have emits {payload : Payload} : Writes Ordinary (emit s .runOutput payload) := ordinary_emit nofun
    exact emits.mono fun _ _ => Ordinary.unreported
  · exact unreported_ingestArtifact

theorem reads_reportedRetention {env : IngestEnvelope} {run : RunRow} :
    Tx.Reads (reportedRetention env run) := by
  unfold reportedRetention
  split
  · split
    · exact writes_fail
    · split
      · exact writes_fail
      · exact writes_done
  · exact writes_done

theorem reads_checkReceipt {ctx : Context} {s : IngestScope} {wireIdentity : Option String}
    {retention : Option StoredWorkspaceRetained} {existing : IngestRow} :
    Tx.Reads (checkReceipt ctx s wireIdentity retention existing) := by
  unfold checkReceipt
  split
  · exact writes_fail
  · exact writes_throwIf
  · exact writes_fail
  · split
    · exact writes_done
    · exact writes_bind writes_select fun _ => writes_throwIf

end Artoo.Server
