import MessageFlow.Dict
import MessageFlow.Text.Quoted
import MessageFlow.Number.Shortest
import MessageFlow.Json.Printer
import MessageFlow.Json.Reader
import MessageFlow.Flow.Definition
import MessageFlow.Message.Basic
import MessageFlow.Condition.Reader
import MessageFlow.Condition.Grammar
import MessageFlow.Condition.Language
import MessageFlow.Graph.Compilation
import MessageFlow.Graph.Walk
import MessageFlow.Route.Descriptor
import MessageFlow.Stage.Materialization
import MessageFlow.Stage.Trace
import MessageFlow.Engine.Execution
import MessageFlow.Deployment.Host
import MessageFlow.Flow.Document
import MessageFlow.Main
import MessageFlow.Proofs.Merge
import MessageFlow.Proofs.Isolation
import MessageFlow.Proofs.Recursion
import MessageFlow.Proofs.Unfolding
import MessageFlow.Proofs.Limits
import MessageFlow.Proofs.Edits
import MessageFlow.Proofs.Identifier
import MessageFlow.Proofs.Compilation
import MessageFlow.Proofs.Compiled
import MessageFlow.Proofs.Materialized
import MessageFlow.Proofs.Routing
import MessageFlow.Proofs.Invariant
import MessageFlow.Proofs.Resolution
import MessageFlow.Proofs.Failure
import MessageFlow.Proofs.Completion
import MessageFlow.Proofs.Oblivious
import MessageFlow.Proofs.StaleMatch
import MessageFlow.Proofs.Deployment
import MessageFlow.Proofs.Namespaces
import MessageFlow.Proofs.WellFormed
import MessageFlow.Proofs.Described
import MessageFlow.Proofs.Asked
import MessageFlow.Proofs.Except
import MessageFlow.Proofs.Scanning
import MessageFlow.Proofs.Reading
import MessageFlow.Proofs.Grammar
import MessageFlow.Proofs.Quotes
import MessageFlow.Proofs.Truncation
import MessageFlow.Proofs.Trail
import MessageFlow.Proofs.Preorder
import MessageFlow.Proofs.Decision
import MessageFlow.Proofs.Headroom
import MessageFlow.Proofs.Frame
import MessageFlow.Proofs.Renumbering
import MessageFlow.Proofs.Reordering
import MessageFlow.Proofs.Selection
import MessageFlow.Proofs.Reachability
import MessageFlow.Proofs.Refusal
import MessageFlow.Proofs.Query
import MessageFlow.Proofs.Documents
import MessageFlow.Proofs.Evaluation
import MessageFlow.Proofs.Absence
import MessageFlow.Proofs.Paths
import MessageFlow.Proofs.Registration
import MessageFlow.Proofs.Lookup
import MessageFlow.Proofs.Construction
import MessageFlow.Proofs.Tracing
