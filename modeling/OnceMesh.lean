import OnceMesh.Authorization
import OnceMesh.Authorization.Derivation
import OnceMesh.Cache
import OnceMesh.Cache.Admissible
import OnceMesh.Cache.Boundary
import OnceMesh.Cache.Lineage
import OnceMesh.Cache.Lookup
import OnceMesh.Cache.Persistence
import OnceMesh.Cache.ReadFailures
import OnceMesh.Cache.Sound
import OnceMesh.Canonical
import OnceMesh.Documents
import OnceMesh.Documents.Stored
import OnceMesh.ExecutionCache
import OnceMesh.ExecutionCache.Barrier
import OnceMesh.ExecutionCache.Envelope
import OnceMesh.ExecutionCache.Epochs
import OnceMesh.ExecutionCache.FilesystemEpochs
import OnceMesh.ExecutionCache.Identity
import OnceMesh.ExecutionCache.Interleaving
import OnceMesh.ExecutionCache.LastWrite
import OnceMesh.ExecutionCache.Lookup
import OnceMesh.ExecutionCache.Writes
import OnceMesh.Federation.Authenticator
import OnceMesh.Federation.Availability
import OnceMesh.Federation.Replay
import OnceMesh.FilesystemStore
import OnceMesh.FilesystemStore.Malformed
import OnceMesh.Integrations.Index
import OnceMesh.Integrations.Interleaving
import OnceMesh.Integrations.NoResurrection
import OnceMesh.KeyRegistry
import OnceMesh.Policy
import OnceMesh.Publication
import OnceMesh.Publication.NewestFirst
import OnceMesh.Python.Base64
import OnceMesh.Python.Datetime
import OnceMesh.Python.Datetime.Iso
import OnceMesh.Python.Datetime.Order
import OnceMesh.Python.Json.Adequacy
import OnceMesh.Python.Json.RoundTrip
import OnceMesh.Python.Stateful
import OnceMesh.Receipt
import OnceMesh.Store
import OnceMesh.StoreWriter
import OnceMesh.TransitionSystem
import OnceMesh.TrustFiles
import OnceMesh.SignedMessages
import OnceMesh.Disk
import OnceMesh.FilesystemStore.Publishing
import OnceMesh.Ecmascript.Text
import OnceMesh.Ecmascript.Value
import OnceMesh.Conformance
import OnceMesh.Adapters
import OnceMesh.Conditional
import OnceMesh.Revalidation
import OnceMesh.Runtime
import OnceMesh.Conditional.NonInterference
import OnceMesh.Runtime.ConditionalFallback
import OnceMesh.Runtime.Deterministic
import OnceMesh.Runtime.Freshness
import OnceMesh.Cache.Traversal
import OnceMesh.Cache.Traversal.Cycles
import OnceMesh.Cache.Traversal.Budget
import OnceMesh.Python.Decimal
import OnceMesh.OrganizationPilot
import OnceMesh.OrganizationPilot.Promotion
import OnceMesh.Discovery
import OnceMesh.MeshStatus
import OnceMesh.MeshStatus.Snapshot
import OnceMesh.Integrations.Activation
import OnceMesh.Federation.CacheStore
import OnceMesh.Federation.Import
import OnceMesh.Federation.FirstEntry
import OnceMesh.Federation.RateLimiter
import OnceMesh.ExecutionCache.RegistryAgreement
import OnceMesh.Revalidation.SingleFlight
import OnceMesh.Integrations.FilesystemIndex
import OnceMesh.Integrations.SqliteIndex
import OnceMesh.Integrations.Generations
import OnceMesh.Integrations.Implementations
import OnceMesh.Integrations.Migration
import OnceMesh.ExecutionCache.Batch
import OnceMesh.Runtime.RequiredReceipt
import OnceMesh.Federation.Catalog
import OnceMesh.Federation.Http
import OnceMesh.Federation.Transport
import OnceMesh.Federation.Base64Decoders
import OnceMesh.Discovery.AvailabilityRatio
import OnceMesh.Integrations.IndexCodec
import OnceMesh.Python.Datetime.Naive
import OnceMesh.Federation.Timestamps
import OnceMesh.Python.Ipaddress
import OnceMesh.Python.Urllib
import OnceMesh.Adapters.SafeHttp
import OnceMesh.Runtime.Authority
import OnceMesh.MeshStatus.Probe
import OnceMesh.Federation.OriginPilot
import OnceMesh.Federation.Withdrawal
import OnceMesh.Leases
import OnceMesh.Federation.Retention
import OnceMesh.Federation.Advertised
import OnceMesh.Federation.CatalogRuns
import OnceMesh.Federation.WithdrawalBound
import OnceMesh.Federation.FilesystemCacheStore
import OnceMesh.Federation.DurableRetention
import OnceMesh.Federation.DurableRuns
