import ProdkitStorage.Foundation.Transition
import ProdkitStorage.Foundation.Json
import ProdkitStorage.Foundation.Keyspace
import ProdkitStorage.Foundation.Numeral
import ProdkitStorage.Foundation.Truth
import ProdkitStorage.Foundation.Ordering
import ProdkitStorage.Foundation.Select
import ProdkitStorage.Foundation.Keyset
import ProdkitStorage.Foundation.RowSecurity
import ProdkitStorage.Python.Error
import ProdkitStorage.Python.Text
import ProdkitStorage.Python.Uuid
import ProdkitStorage.Python.Datetime
import ProdkitStorage.Python.Decimal
import ProdkitStorage.Python.Value
import ProdkitStorage.Python.Object
import ProdkitStorage.Python.Primitives
import ProdkitStorage.Python.Base64
import ProdkitStorage.Config
import ProdkitStorage.Context
import ProdkitStorage.Outbox.Event
import ProdkitStorage.Outbox.Lease
import ProdkitStorage.Outbox.Dispatch
import ProdkitStorage.Outbox.Attempts
import ProdkitStorage.Redis.Idempotency
import ProdkitStorage.Redis.Lock
import ProdkitStorage.Redis.LockSafety
import ProdkitStorage.Foundation.Resend
import ProdkitStorage.Redis.Resend
import ProdkitStorage.Foundation.TokenBucket
import ProdkitStorage.Redis.RateLimit
import ProdkitStorage.Database.Savepoints
import ProdkitStorage.Security.Audit
import ProdkitStorage.Audit
import ProdkitStorage.Security.Redaction
import ProdkitStorage.Security.Origin
import ProdkitStorage.Security.Naming
import ProdkitStorage.Redis.Keys
import ProdkitStorage.Redis.Cache
import ProdkitStorage.Redis.Tags
import ProdkitStorage.Redis.GetOrSet
import ProdkitStorage.Redis.JsonCodec
import ProdkitStorage.Redis.Stampede
import ProdkitStorage.Redis.Hits
import ProdkitStorage.Alembic.Rls
import ProdkitStorage.Database.Backfill
import ProdkitStorage.Database.Resume
import ProdkitStorage.Database.Tenant
import ProdkitStorage.Database.TenantIsolation
import ProdkitStorage.Database.Sorting
import ProdkitStorage.Database.Boundary
import ProdkitStorage.Database.Cursor
import ProdkitStorage.Database.CursorValues
import ProdkitStorage.Database.Pagination
import ProdkitStorage.Database.CursorBinding
import ProdkitStorage.Database.KeysetWalk
import ProdkitStorage.Database.Repository
import ProdkitStorage.Database.SoftDelete
import ProdkitStorage.Database.Legacy
import ProdkitStorage.Database.Following
import ProdkitStorage.Database.LegacyWalk
import ProdkitStorage.Database.PlanOrder
import ProdkitStorage.Database.Lookahead
import ProdkitStorage.Redis.KeyRoles
import ProdkitStorage.Redis.Roles
import ProdkitStorage.Redis.Freshness
import ProdkitStorage.Database.OptimisticLock
import ProdkitStorage.Foundation.Program
import ProdkitStorage.Release.Assets
import ProdkitStorage.Release.Publish
import ProdkitStorage.Release.FailClosed
import ProdkitStorage.Python.Url
import ProdkitStorage.Release.Client
import ProdkitStorage.Release.GitHub
import ProdkitStorage.Release.Methods
import ProdkitStorage.Release.Changes
import ProdkitStorage.Release.Resumable
import ProdkitStorage.Release.Rerun
import ProdkitStorage.Redis.RetryAfter
import ProdkitStorage.Redis.ClockStep
import ProdkitStorage.Redis.KeyCollisions
import ProdkitStorage.Database.Errors
import ProdkitStorage.Database.Transactions
import ProdkitStorage.Database.MigrationOps
import ProdkitStorage.Integrations.Schemas
import ProdkitStorage.Security.AuditGraph
import ProdkitStorage.Foundation.Behaviour
import ProdkitStorage.Migrations.Safety
import ProdkitStorage.Migrations.Visits
import ProdkitStorage.Migrations.Sight
import ProdkitStorage.Migrations.Wrapping
import ProdkitStorage.Migrations.Runs
import ProdkitStorage.Migrations.NewTables
import ProdkitStorage.Database.OffsetPages
import ProdkitStorage.Database.SortRoundTrip
import ProdkitStorage.Database.Locks
import ProdkitStorage.Foundation.Like
import ProdkitStorage.Database.Filtering
import ProdkitStorage.Database.FilterMeaning
import ProdkitStorage.Foundation.Script
import ProdkitStorage.Security.Roles
import ProdkitStorage.Security.RoleScripts
import ProdkitStorage.Security.Catalog
import ProdkitStorage.Security.Effects
import ProdkitStorage.Security.LeastPrivilege
import ProdkitStorage.Outbox.Backoff
import ProdkitStorage.Outbox.Metrics
import ProdkitStorage.Outbox.Marking
import ProdkitStorage.Alembic.RlsRuns
import ProdkitStorage.Database.RlsVerification
import ProdkitStorage.Alembic.Revisions
import ProdkitStorage.Alembic.LeaseMigration
import ProdkitStorage.Database.UnitOfWork
import ProdkitStorage.Foundation.DynamicScope
import ProdkitStorage.Integrations.RequestContexts
import ProdkitStorage.Backup.Commands
import ProdkitStorage.Backup.Verify
import ProdkitStorage.Database.Observability
import ProdkitStorage.Migrations.Check
import ProdkitStorage.Database.ConnectionOptions
import ProdkitStorage.Foundation.TransactionModes
import ProdkitStorage.Database.ReadOnlySessions
import ProdkitStorage.Database.ObservedTransactions
