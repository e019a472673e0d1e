import MoodengSQL.Core.Engine
import MoodengSQL.Foundation.Effect
import MoodengSQL.Execution.Failure
import MoodengSQL.Foundation.Framing
import MoodengSQL.Log.Reopen
import MoodengSQL.Recovery.Durability
import MoodengSQL.Recovery.Dropped
import MoodengSQL.Log.Lifetimes
import MoodengSQL.Paging.Refinement
import MoodengSQL.Reading.IndexScan
import MoodengSQL.Recovery.Shutdown
import MoodengSQL.Recovery.Interrupted
import MoodengSQL.Concurrency.Rollback
import MoodengSQL.Concurrency.Indexes
import MoodengSQL.Concurrency.RowLocks
import MoodengSQL.Replay.Idempotent
import MoodengSQL.Execution.StandAlone
import MoodengSQL.Recovery.SchemaFile
import MoodengSQL.Execution.Conformity
import MoodengSQL.Concurrency.Backup
import MoodengSQL.Concurrency.Deadlock
import MoodengSQL.Foundation.Traces
import MoodengSQL.Server.Gates
import MoodengSQL.Server.Lengths
import MoodengSQL.Server.Disconnect
import MoodengSQL.Server.Cycles
import MoodengSQL.Server.Portals
import MoodengSQL.Paging.Migration
import MoodengSQL.Log.Checksum
import MoodengSQL.Reading.Joins
import MoodengSQL.Reading.Grouping
import MoodengSQL.Execution.Touched
import MoodengSQL.Execution.Upserts
import MoodengSQL.Evaluation.Comparisons
import MoodengSQL.Evaluation.Arithmetic
import MoodengSQL.Execution.Inserted
import MoodengSQL.Execution.Assignments
import MoodengSQL.Evaluation.Logic
import MoodengSQL.Foundation.Partition
import MoodengSQL.Reading.GroupKeys
import MoodengSQL.Foundation.Comparators
import MoodengSQL.Reading.Ordering
import MoodengSQL.Server.Utf8
import MoodengSQL.Server.Binding
import MoodengSQL.Foundation.Tokens
import MoodengSQL.Server.Substitution
import MoodengSQL.Foundation.Recency
import MoodengSQL.Paging.Cache
import MoodengSQL.Log.Fresh
import MoodengSQL.Log.Synced
import MoodengSQL.Server.Client
import MoodengSQL.Server.Rows
import MoodengSQL.Server.Columns
import MoodengSQL.Server.Salted
import MoodengSQL.Foundation.Base64
import MoodengSQL.Server.Exchange
import MoodengSQL.Server.Stages
import MoodengSQL.Server.Startup
import MoodengSQL.Concurrency.Logging
import MoodengSQL.Concurrency.LogOrder
import MoodengSQL.Concurrency.LockedRows
import MoodengSQL.Concurrency.Checkpoints
import MoodengSQL.Recovery.Backups
import MoodengSQL.Recovery.Directories
import MoodengSQL.Recovery.Stored
import MoodengSQL.Recovery.Restoring
import MoodengSQL.Relational.Refinement
import MoodengSQL.Server.Draining
import MoodengSQL.Foundation.Conversation
import MoodengSQL.Server.Dialogue
import MoodengSQL.Server.Ping
