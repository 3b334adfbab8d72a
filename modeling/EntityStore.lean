import EntityStore.Samples
import EntityStore.Condition.Text
import EntityStore.Metadata.Document
import EntityStore.Store.Pool
import EntityStore.Sql.Aggregate
import EntityStore.Sql.CallLog
import EntityStore.Sql.PlainChain
import EntityStore.Sql.WhereClause
import EntityStore.Proofs.Population
import EntityStore.Proofs.Alike
import EntityStore.Proofs.FailedCalls
import EntityStore.Proofs.Faults
import EntityStore.Proofs.Regular
import EntityStore.Proofs.Remembering
import EntityStore.Proofs.Mirroring
import EntityStore.Proofs.Storage
import EntityStore.Proofs.StoredIds
import EntityStore.Proofs.Reference
import EntityStore.Proofs.Refinement
import EntityStore.Proofs.Relations
import EntityStore.Proofs.Sql.Grammar
import EntityStore.Proofs.Sql.Reading
import EntityStore.Proofs.Sql.Tests
import EntityStore.Proofs.Sql.Alignment
import EntityStore.Proofs.Sql.Assembly
import EntityStore.Proofs.Sql.Conditions
import EntityStore.Proofs.Sql.Operands
import EntityStore.Proofs.Sql.Recording
import EntityStore.Proofs.Sql.Replay
import EntityStore.Proofs.ExtraReadings
import EntityStore.Proofs.Readings
import EntityStore.Proofs.ReadYourWrites
import EntityStore.Proofs.Readability
import EntityStore.Proofs.Commuting
import EntityStore.Proofs.FreshIds
import EntityStore.Proofs.Batches
import EntityStore.Proofs.Accounting
import EntityStore.Proofs.Sql.Conjuncts
import EntityStore.Proofs.Comparison
import EntityStore.Proofs.Misconfiguration
import EntityStore.Proofs.BackReferences
import EntityStore.Proofs.Deletion
import EntityStore.Proofs.SortingByKeys
import EntityStore.Proofs.Sql.QuotedNames
import EntityStore.Proofs.Rewriting
import EntityStore.Proofs.Documents
import EntityStore.Proofs.EventLog
