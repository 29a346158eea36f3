import UTTG.Core.Transition
import UTTG.Core.Expiring
import UTTG.Core.Table
import UTTG.Core.Lease
import UTTG.Core.FixedWindow
import UTTG.Core.TokenLock
import UTTG.Ingestion.Guarded
import UTTG.Ingestion.SlotExclusion
import UTTG.Providers.Circuit
import UTTG.Cache.Layer
import UTTG.Cache.SingleFlight
import UTTG.Webhooks.Registration
import UTTG.Ingestion.Launches
import UTTG.Python.Text
import UTTG.Python.Dict
import UTTG.Python.Json
import UTTG.Webhooks.Lifecycle
import UTTG.Webhooks.ActiveLimit
import UTTG.Python.JsonRoundTrip
import UTTG.Python.Document
import UTTG.Python.JsonLoads
import UTTG.Python.Codec
import UTTG.Python.Repr
import UTTG.Webhooks.Worker
import UTTG.Webhooks.NoLoss
import UTTG.Cache.Provenance
import UTTG.Cache.Body
import UTTG.Analytics.Aggregate
import UTTG.Ingestion.Batches
import UTTG.Python.Runtime
import UTTG.Ingestion.Statements
import UTTG.Ingestion.Upserts
import UTTG.Cache.Loaders
import UTTG.Cache.Freshness
import UTTG.Analytics.Buckets
import UTTG.Limits.RateLimiter
import UTTG.Limits.Quotas
import UTTG.Ingestion.Catalog
import UTTG.Ingestion.Designators
import UTTG.Providers.Counter
import UTTG.Webhooks.Ssrf
import UTTG.Webhooks.Ownership
import UTTG.Webhooks.Isolation
import UTTG.Webhooks.Idempotency
import UTTG.Webhooks.Outcomes
import UTTG.Webhooks.HealthEntry
import UTTG.Limits.ClientAddress
import UTTG.Webhooks.MappedAddresses
import UTTG.Ingestion.ForeignKeys
import UTTG.Limits.Advertised
import UTTG.Providers.Celestrak
import UTTG.Providers.CatalogPairs
import UTTG.Providers.CatalogBlocks
import UTTG.Providers.LaunchRecords
import UTTG.Api.Collections
import UTTG.Core.SlidingWindow
import UTTG.Providers.SpaceTrack
import UTTG.Providers.SpaceTrackBudgets
import UTTG.Providers.Jpl
import UTTG.Providers.JplDesignations
import UTTG.Providers.JplApproaches
import UTTG.Core.Readings
import UTTG.Ingestion.SpaceWeather
import UTTG.Ingestion.RetryDelay
import UTTG.Providers.Rounds
import UTTG.Cache.Cleanup
import UTTG.Webhooks.Dispatch
import UTTG.Analytics.Writer
import UTTG.Core.Separated
import UTTG.Python.Integer
import UTTG.Api.CacheKeys
import UTTG.Core.Wrapped
import UTTG.Api.BodyLimit
import UTTG.Core.Binary64
import UTTG.Python.Calendar
import UTTG.Api.Position
import UTTG.Core.Duplicates
import UTTG.Storage.Uniqueness
import UTTG.Web.Polling
import UTTG.Api.CacheReports
import UTTG.Api.LaunchAnswers
import UTTG.Analytics.Series
import UTTG.Api.TleSets
import UTTG.Api.ResponseMeta
import UTTG.Api.NearEarth
import UTTG.Webhooks.Deliveries
import UTTG.Webhooks.Events
import UTTG.Core.Tally
import UTTG.Api.Middleware
import UTTG.Web.Offline
import UTTG.Cache.Staleness
import UTTG.Cache.Entries
import UTTG.Api.CatalogPages
