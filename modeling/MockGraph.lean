import MockGraph.Json.Shape
import MockGraph.Main
import MockGraph.Server.Target
import MockGraph.Proofs.Execution.Nulls
import MockGraph.Proofs.Subscription.Delivery
import MockGraph.Proofs.Server.Drain
import MockGraph.Proofs.Server.Registrations
import MockGraph.Proofs.Subscription.Roster
import MockGraph.Proofs.Server.Sweep
import MockGraph.Proofs.Server.Outbox
import MockGraph.Proofs.Server.Silence
import MockGraph.Proofs.Execution.Leaves
import MockGraph.Proofs.Execution.Supplied
import MockGraph.Proofs.Server.Lifecycle
import MockGraph.Proofs.Server.Rejection
import MockGraph.Proofs.Server.Dismissal
import MockGraph.Proofs.Operation.Collection
import MockGraph.Proofs.Execution.Agreement
import MockGraph.Proofs.Execution.Generation
import MockGraph.Proofs.Execution.Payload
import MockGraph.Proofs.Execution.Steadiness
import MockGraph.Proofs.Execution.Internal
import MockGraph.Proofs.Server.Outcomes
import MockGraph.Proofs.Wire.Unambiguous
import MockGraph.Proofs.Wire.Responses
import MockGraph.Proofs.Server.Writing
import MockGraph.Proofs.SkiDay.Announcements
import MockGraph.Proofs.SkiDay.Ledger
import MockGraph.Proofs.SkiDay.Conformance
import MockGraph.Proofs.SkiDay.Identifiers
import MockGraph.Proofs.Execution.Precedence
import MockGraph.Proofs.Execution.Recording
import MockGraph.Proofs.Execution.Idempotence
import MockGraph.Proofs.Operation.Inlining
import MockGraph.Proofs.Operation.Variables
import MockGraph.Proofs.Mock.RuleTables
import MockGraph.Proofs.Execution.Lengths
import MockGraph.Proofs.Operation.SingleRoot
import MockGraph.Proofs.Subscription.Publishing
import MockGraph.Proofs.Server.Statuses
import MockGraph.Proofs.Wire.Decoding
import MockGraph.Proofs.Server.CustomSchemas
import MockGraph.Proofs.Execution.ShownTypes
