import SqlService.Proofs.Effect.Runs
import SqlService.Proofs.Flow.Turn
import SqlService.Proofs.Flow.History
import SqlService.Proofs.Flow.Move
import SqlService.Proofs.Flow.Lifecycle
import SqlService.Proofs.Flow.Task
import SqlService.Main
import SqlService.Connection.Scripted
import SqlService.Statement.Binding
import SqlService.Proofs.Flow.Settlement
import SqlService.Proofs.Statement.Closed
import SqlService.Proofs.Statement.LiveNames
import SqlService.Proofs.Filter.Condition
import SqlService.Proofs.Filter.Parameters
import SqlService.Proofs.Query.BoundValues
import SqlService.Proofs.Condition.Tokens
import SqlService.Proofs.Condition.Grammar
import SqlService.Proofs.Filter.Meaning
import SqlService.Proofs.Filter.Alike
import SqlService.Proofs.Query.Insertion
import SqlService.Proofs.Query.Independence
import SqlService.Proofs.Statement.Scanner
import SqlService.Proofs.Statement.Placeholders
import SqlService.Proofs.Effect.Contract
import SqlService.Proofs.Fragment.Expansion
import SqlService.Proofs.Fragment.Memory
import SqlService.Proofs.Flow.Trace
import SqlService.Proofs.Flow.Transactions
import SqlService.Proofs.Schema.Idempotence
import SqlService.Proofs.Flow.Cancellation
import SqlService.Proofs.Flow.Concurrency
import SqlService.Proofs.Filter.Numbering
import SqlService.Proofs.Fragment.Substitution
import SqlService.Proofs.Flow.Nesting
import SqlService.Proofs.Flow.Configuration
import SqlService.Proofs.Query.Merging
import SqlService.Proofs.Statement.Positions
import SqlService.Proofs.Flow.Sending
import SqlService.Proofs.Statement.Quoted
import SqlService.Proofs.Statement.BoundText
import SqlService.Proofs.Query.InsertedRow
import SqlService.Proofs.Query.KeyedRow
import SqlService.Proofs.Schema.PrimaryKey
import SqlService.Proofs.Schema.Literals
import SqlService.Proofs.Query.Additions
import SqlService.Proofs.Query.Wrapping
import SqlService.Proofs.Schema.Rendering
import SqlService.Proofs.Schema.Building
import SqlService.Proofs.Schema.StorageOrder
import SqlService.Proofs.Schema.TypeNames
import SqlService.Proofs.Filter.SortText
import SqlService.Proofs.Flow.SortArguments
import SqlService.Proofs.Record.Paths
import SqlService.Proofs.Flow.ArgumentOrder
import SqlService.Proofs.Flow.References
import SqlService.Proofs.Flow.Invocation
import SqlService.Proofs.Flow.Outputs
import SqlService.Proofs.Provider.Sharing
import SqlService.Proofs.Record.Scalars
import SqlService.Proofs.Flow.Bookkeeping
import SqlService.Proofs.Statement.Cuts
