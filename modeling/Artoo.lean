import Artoo.Lib.Path
import Artoo.Journal.Admission
import Artoo.Journal.Outbox
import Artoo.Journal.Counters
import Artoo.Server.Answers
import Artoo.Server.Assignment
import Artoo.Server.ExactlyOnce
import Artoo.Server.Exclusion
import Artoo.Server.Integration
import Artoo.Server.Unlock
import Artoo.Server.LeaseExpiry
import Artoo.Realtime.Topics
import Artoo.Realtime.Completeness
import Artoo.Planning.Acceptable
import Artoo.Planning.Dependencies
import Artoo.Planning.Goals
import Artoo.Planning.PlanAcceptance
import Artoo.Planning.PlanRuns
import Artoo.Domain.Dag
import Artoo.Members.Dispatch
import Artoo.Planning.References
import Artoo.Planning.Unlocking
import Artoo.Storage.Idempotent
import Artoo.Storage.Migrations
import Artoo.Client.CommandQueue
import Artoo.Client.RealtimeClient
import Artoo.Http.IdempotencyMiddleware
import Artoo.Devices.Pairing
import Artoo.Devices.Presence
import Artoo.Domain.LeasePath
import Artoo.Assistants.Debate
import Artoo.Node.Accounting
import Artoo.Node.Porcelain
import Artoo.Node.Supervisor
import Artoo.Protocol.WorkspaceGuard
import Artoo.Protocol.WorkspaceRoots
import Artoo.Server.Retention
import Artoo.Memories.Selection
import Artoo.Memories.Supersession
import Artoo.Server.BodyIdentity
import Artoo.Node.OwnedGitGroup
import Artoo.Node.WorktreeOnce
import Artoo.Node.ProcessOutcome
import Artoo.Node.OwnedReceipts
import Artoo.Node.LineEmitter
import Artoo.Server.ReturnTo
import Artoo.Server.Roster
import Artoo.Node.LegacyTransport
import Artoo.Lib.Sorting
import Artoo.Client.RoomMessages
import Artoo.Server.Collaboration
import Artoo.Server.FollowUp
import Artoo.Server.Resume
import Artoo.Lib.Replacing
import Artoo.Lib.Escapes
import Artoo.Lib.JsonStrings
import Artoo.Lib.JsonWritten
import Artoo.Lib.EscapedForms
import Artoo.Node.Redaction
import Artoo.Lib.PlainParts
import Artoo.Lib.Automaton
import Artoo.Server.ClaimLimit
import Artoo.Realtime.Hub
import Artoo.Realtime.ClientSocket
import Artoo.Realtime.GraceWindow
import Artoo.Devices.LiveConnections
import Artoo.Lib.TextCodecs
import Artoo.Server.MessagePages
