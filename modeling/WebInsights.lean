import WebInsights.Effect.Program
import WebInsights.Js.Merge
import WebInsights.Common.Guid
import WebInsights.Common.Hash
import WebInsights.Data.Keyed
import WebInsights.Cosmos.Collection
import WebInsights.Cosmos.Client
import WebInsights.Cosmos.ClientSpec
import WebInsights.Cosmos.MergeSemantics
import WebInsights.Cosmos.FailedRead
import WebInsights.Effect.Pool
import WebInsights.Effect.Optimistic
import WebInsights.Cosmos.Concurrent
import WebInsights.Cosmos.MergeCalls
import WebInsights.Providers.DataProviders
import WebInsights.Cosmos.ClientRuns
import WebInsights.Providers.ProviderSpec
import WebInsights.Providers.Routing
import WebInsights.Providers.PartitionRouting
import WebInsights.Auth.AzureAdAuth
import WebInsights.Effect.Trace
import WebInsights.Auth.Soundness
import WebInsights.WebApi.WebController
import WebInsights.WebApi.Pipeline
import WebInsights.WebApi.ApiRequest
import WebInsights.WebApi.Contracts
import WebInsights.StorageApi.Converters
import WebInsights.StorageApi.Controllers
import WebInsights.StorageApi.Requests
import WebInsights.Effect.Guarantee
import WebInsights.Cosmos.Shapes
import WebInsights.StorageApi.WebsiteStore
import WebInsights.StorageApi.WebsiteRuns
import WebInsights.StorageApi.RoundTrip
import WebInsights.StorageApi.PageSet
import WebInsights.Cosmos.Reads
import WebInsights.StorageApi.ScanAddress
import WebInsights.StorageApi.ScanWellFormed
import WebInsights.StorageApi.PageFrame
import WebInsights.Effect.Loop
import WebInsights.Cosmos.Paging
import WebInsights.Providers.PagedQueries
import WebInsights.Effect.History
import WebInsights.Js.Json
import WebInsights.AzureQueue.Queue
import WebInsights.AzureQueue.Server
import WebInsights.AzureQueue.Calls
import WebInsights.AzureQueue.Delivery
import WebInsights.AzureQueue.DeadLetters
import WebInsights.Effect.Mutex
import WebInsights.Data.TimedCache
import WebInsights.Credentials.ManagedCredential
import WebInsights.Credentials.TokenCache
import WebInsights.Auth.AclProvider
import WebInsights.Auth.AclCache
import WebInsights.Auth.AclFlights
import WebInsights.Kql.Lexer
import WebInsights.StorageApi.HealthQueries
import WebInsights.Effect.Ends
import WebInsights.E2eTestRunner.TestScenarios
import WebInsights.E2eTestRunner.Verdicts
import WebInsights.Js.Number
import WebInsights.Data.Walk
import WebInsights.Common.JumpConsistentHash
import WebInsights.Effect.Returns
import WebInsights.Data.Batches
import WebInsights.AzureQueue.TotalCount
import WebInsights.Data.FirstOccurrences
import WebInsights.StorageApi.KnownPages
import WebInsights.Providers.PageScanPairs
import WebInsights.Effect.Memo
import WebInsights.Common.SingletonProvider
import WebInsights.Data.Requirements
import WebInsights.WebApi.Validation
import WebInsights.StorageApi.Validation
import WebInsights.Data.Columns
import WebInsights.StorageApi.HealthReport
import WebInsights.StorageApi.ReleaseHealth
import WebInsights.Common.GuidTimestamp
import WebInsights.Common.RetryHelper
import WebInsights.AzureQueue.Enqueue
import WebInsights.Effect.Deadline
import WebInsights.HealthClient.DeploymentHealthChecker
import WebInsights.Cosmos.TryExecuteOperation
import WebInsights.Effect.Machine
import WebInsights.Cosmos.UpsertItems
import WebInsights.Data.Utf8
import WebInsights.AzureBlob.BlobStorageClient
import WebInsights.E2eTestRunner.TestDecorator
import WebInsights.E2eTestRunner.TestRunner
import WebInsights.Logging.LoggerProperties
import WebInsights.Logging.Logger
import WebInsights.Logging.StartUp
import WebInsights.Logging.ContextAwareClients
import WebInsights.Js.Dictionary
import WebInsights.Common.HashSet
import WebInsights.Common.ServiceConfiguration
import WebInsights.Kql.Query
import WebInsights.Kql.Parser
import WebInsights.StorageApi.ReleaseQueries
import WebInsights.StorageApi.ReleaseVerdict
import WebInsights.E2eTestRunner.ReleaseReport
import WebInsights.Effect.Interpret
import WebInsights.Cosmos.RetriedMerges
import WebInsights.Effect.Cells
import WebInsights.Cosmos.DocumentCells
import WebInsights.Cosmos.BulkMerges
import WebInsights.Providers.ConcurrentRouting
import WebInsights.StorageApi.ConcurrentRequests
import WebInsights.Common.Tries
import WebInsights.StorageApiClient.WebInsightsStorageClient
import WebInsights.StorageApiClient.SignedRequests
import WebInsights.StorageApiClient.Routes
import WebInsights.StorageApiClient.LossyNetwork
import WebInsights.StorageApiClient.RepeatedPosts
import WebInsights.StorageApiClient.ReadBack
import WebInsights.Effect.Simulation
import WebInsights.StorageApiClient.HealthReports
import WebInsights.HealthClient.ReleaseGate
import WebInsights.HealthClient.TestedRelease
