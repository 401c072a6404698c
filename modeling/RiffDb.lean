import RiffDb.EpochVoteWire
import RiffDb.SourceContact
import RiffDb.ConflictAccounting
import RiffDb.QuorumConfiguration
import RiffDb.FollowerProgress
import RiffDb.ChangelogCanonical
import RiffDb.OverlayRebase
import RiffDb.JournalCrash
import RiffDb.KeySchemaCodec
import RiffDb.WorkflowLeases
import RiffDb.CommandRejections
import RiffDb.TransactionCurrent
import RiffDb.IndexPagination
import RiffDb.PrimaryAdmissionGate
import RiffDb.OutboxDelivery
import RiffDb.WildcardPatterns
