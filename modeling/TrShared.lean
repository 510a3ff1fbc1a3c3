import TrShared.Machine.Run
import TrShared.Machine.History
import TrShared.Machine.Shared
import TrShared.Machine.Table
import TrShared.Machine.PendingList
import TrShared.Machine.Expiring
import TrShared.Machine.Ledger
import TrShared.Python.Json
import TrShared.Python.OrderedDict
import TrShared.Events.RetryPolicy
import TrShared.Events.Producer
import TrShared.Events.Envelope
import TrShared.Events.Outbox
import TrShared.Events.OutboxSteps
import TrShared.Events.OutboxDelivery
import TrShared.Events.OutboxExclusive
import TrShared.Events.OutboxTerminal
import TrShared.Events.Consumer
import TrShared.Events.ConsumerSteps
import TrShared.Events.ConsumerOutcome
import TrShared.Events.ConsumerRetries
import TrShared.Events.ConsumerDedup
import TrShared.Events.ConsumerLifecycle
import TrShared.Events.Pipeline
import TrShared.Middleware.Idempotency
import TrShared.Middleware.IdempotencyIsolation
import TrShared.Middleware.IdempotencyProtocol
import TrShared.Http.CircuitBreaker
import TrShared.Http.ServiceClient
import TrShared.Http.HalfOpenPeriods
import TrShared.Http.ProbeReport
import TrShared.Integrations.FetchConfig
import TrShared.RateLimiter.Redis
import TrShared.RateLimiter.Algorithms
import TrShared.RateLimiter.SlidingWindow
import TrShared.RateLimiter.MemoryFallback
import TrShared.RateLimiter.Core
import TrShared.Integrations.ConfigClient
import TrShared.Integrations.ConfigFreshness
import TrShared.Integrations.ConfigStampede
import TrShared.Webhooks.Endpoint
import TrShared.Webhooks.Acknowledgement
import TrShared.Db.Pagination
import TrShared.Machine.Pages
import TrShared.Db.Repository
import TrShared.Db.Session
import TrShared.Events.DedupWindow
import TrShared.Events.Routing
import TrShared.Events.RoundTrip
import TrShared.Events.OutboxCalls
import TrShared.Events.OutboxPoison
import TrShared.Events.OutboxAccounting
import TrShared.Events.OutboxSpacing
import TrShared.Integrations.ConfigSlots
import TrShared.Python.Utf8
import TrShared.Middleware.IdempotencyReplay
import TrShared.Db.Isolation
import TrShared.Db.Lookups
import TrShared.Events.ProcessMessage
import TrShared.Events.PoisonEntry
import TrShared.Events.FalseDuplicates
import TrShared.Cache.Counter
import TrShared.Cache.Service
import TrShared.RateLimiter.FallbackCleanup
import TrShared.RateLimiter.RetryAfter
import TrShared.Db.EscapeLike
import TrShared.Http.InternalClient
import TrShared.Python.Urlencoded
import TrShared.Schemas.UnstorableText
import TrShared.Middleware.UnstorableText
import TrShared.Python.Text
import TrShared.Sql.Like
import TrShared.Python.Url
import TrShared.Python.Replace
import TrShared.Db.SessionUrl
import TrShared.Db.MergeGate
import TrShared.Python.Output
import TrShared.Python.Decimal
import TrShared.Monitoring.PathNormalizer
import TrShared.Testing.Stack
import TrShared.Machine.Rounds
import TrShared.Testing.DbReach
import TrShared.Machine.Recursion
import TrShared.Testing.NameResolution
import TrShared.Testing.ErrorCategories
import TrShared.Testing.ClassFamily
import TrShared.Python.Regex
import TrShared.Redis.Glob
import TrShared.Cache.EntityKeys
import TrShared.Python.Repr
import TrShared.Webhooks.Bodies
import TrShared.Webhooks.OneDelivery
import TrShared.Python.Lines
import TrShared.Testing.CeleryTopology
import TrShared.Testing.StartScript
import TrShared.Testing.QueueLists
import TrShared.Testing.AssignedLists
import TrShared.Testing.ConsumedQueues
import TrShared.Redis.Pool
import TrShared.Cache.ServiceCache
import TrShared.Python.JsonText
import TrShared.Python.JsonRoundTrip
import TrShared.Events.PlainRoundTrip
import TrShared.Monitoring.LokiHandler
import TrShared.Cache.Aside
import TrShared.Middleware.ExceptionHandlers
import TrShared.Http.ErrorPropagation
import TrShared.Testing.Template
import TrShared.Testing.TemplateRuns
import TrShared.Machine.FixedWindow
import TrShared.RateLimiter.Failover
import TrShared.Alerts.Slack
import TrShared.Correlation.Headers
import TrShared.Correlation.Chains
import TrShared.Events.DeadLetters
import TrShared.Db.Outages
import TrShared.Testing.TransactionGuard
import TrShared.Machine.Isolation
import TrShared.RateLimiter.Callers
import TrShared.Python.Exceptions
import TrShared.Testing.SwallowedErrors
import TrShared.Testing.ErrorBoundary
