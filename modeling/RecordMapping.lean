import RecordMapping.Connection
import RecordMapping.Error.Client
import RecordMapping.Proofs.Assembly.Attaching
import RecordMapping.Proofs.Assembly.RelationOrder
import RecordMapping.Proofs.Hydration.Plain
import RecordMapping.Proofs.Query.AddingConditions
import RecordMapping.Proofs.Query.AddingNames
import RecordMapping.Proofs.Query.Booleans
import RecordMapping.Proofs.Query.Counting
import RecordMapping.Proofs.Query.Includes
import RecordMapping.Proofs.Query.Keys
import RecordMapping.Proofs.Query.Limits
import RecordMapping.Proofs.Query.Numbers
import RecordMapping.Proofs.Query.Outlines
import RecordMapping.Proofs.Query.Paging
import RecordMapping.Proofs.Query.Readings
import RecordMapping.Proofs.Query.Renaming
import RecordMapping.Proofs.Query.Requested
import RecordMapping.Proofs.Query.Scoping
import RecordMapping.Proofs.Query.Spellings
import RecordMapping.Proofs.Relation.Accepting
import RecordMapping.Proofs.Relation.Declaring
import RecordMapping.Proofs.Relation.Failing
import RecordMapping.Proofs.Relation.Indexes
import RecordMapping.Proofs.Relation.Pairing
import RecordMapping.Proofs.Relation.References
import RecordMapping.Proofs.Relation.Scope
import RecordMapping.Proofs.Repository.Bookkeeping
import RecordMapping.Proofs.Repository.Compiling
import RecordMapping.Proofs.Repository.Keying
import RecordMapping.Proofs.Repository.Overflowing
import RecordMapping.Proofs.Repository.Sending
import RecordMapping.Proofs.Repository.StoredValues
import RecordMapping.Proofs.Sql.Evaluation
import RecordMapping.Proofs.Sql.Slots
import RecordMapping.Proofs.Sql.Writable
import RecordMapping.Proofs.Url.Connecting
import RecordMapping.Repository.Typed
import RecordMapping.Text.Hex
