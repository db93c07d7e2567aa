import DrasiPlatform.Core.Run
import DrasiPlatform.Core.Sequential
import DrasiPlatform.Core.Writes
import DrasiPlatform.Core.Json
import DrasiPlatform.Core.JsonText
import DrasiPlatform.Core.JsonStream
import DrasiPlatform.Core.Base64
import DrasiPlatform.Core.FileTree
import DrasiPlatform.Core.Serde
import DrasiPlatform.Core.Follower
import DrasiPlatform.Core.Pages
import DrasiPlatform.ChangeStream.Redis
import DrasiPlatform.ChangeStream.RedisChangeStream
import DrasiPlatform.ChangeStream.Delivery
import DrasiPlatform.ChangeStream.Malformed
import DrasiPlatform.ChangeStream.ResultMessage
import DrasiPlatform.QueryHost.QueryWorker
import DrasiPlatform.QueryHost.Host
import DrasiPlatform.QueryHost.Configure
import DrasiPlatform.QueryHost.Deleted
import DrasiPlatform.QueryHost.Incarnations
import DrasiPlatform.QueryHost.Provisioned
import DrasiPlatform.QueryHost.Bootstrapped
import DrasiPlatform.QueryHost.Sequence
import DrasiPlatform.QueryHost.Diffs
import DrasiPlatform.View.MongoViewStore
import DrasiPlatform.View.RecordChange
import DrasiPlatform.View.GetView
import DrasiPlatform.View.Touches
import DrasiPlatform.View.Temporal
import DrasiPlatform.View.Current
import DrasiPlatform.View.ViewWorker
import DrasiPlatform.View.Snapshot
import DrasiPlatform.View.Redelivered
import DrasiPlatform.View.GarbageCollection
import DrasiPlatform.Router.SubscriberMap
import DrasiPlatform.Router.ProcessChanges
import DrasiPlatform.Router.Routing
import DrasiPlatform.Router.Restart
import DrasiPlatform.Router.Unsubscribe
import DrasiPlatform.Router.RecordKeys
import DrasiPlatform.Dispatcher.ChangeDispatcher
import DrasiPlatform.Bootstrap.Relay
import DrasiPlatform.Bootstrap.SourcePipeline
import DrasiPlatform.Bootstrap.HandOver
import DrasiPlatform.Reactions.ChangeEventHandler
import DrasiPlatform.Reactions.Mirror
import DrasiPlatform.Reactions.Redelivery
import DrasiPlatform.Reactions.QueryHub
import DrasiPlatform.Reactions.ResultSet
import DrasiPlatform.Reactions.ReloadStream
import DrasiPlatform.MgmtApi.ResourceService
import DrasiPlatform.MgmtApi.Watch
import DrasiPlatform.MgmtApi.QuerySpecWire
import DrasiPlatform.MgmtApi.QueryReapplied
import DrasiPlatform.Core.Programs
import DrasiPlatform.Provider.QueryContainer
import DrasiPlatform.QueryHost.IndexFactory
import DrasiPlatform.Provider.Cluster
import DrasiPlatform.Provider.Reconciler
import DrasiPlatform.Provider.Converge
import DrasiPlatform.Provider.Controller
import DrasiPlatform.Provider.Deprovision
import DrasiPlatform.Provider.Latest
import DrasiPlatform.Sources.KubernetesReactivator
import DrasiPlatform.Sources.WatchCursor
import DrasiPlatform.Sources.TableCursor
import DrasiPlatform.Sources.ChangeConsumer
import DrasiPlatform.Sources.RowAgreement
import DrasiPlatform.Sources.ElementIds
import DrasiPlatform.Sources.LogPositions
import DrasiPlatform.Sources.OffsetStore
import DrasiPlatform.Provider.SpecBuilder
import DrasiPlatform.MgmtApi.ExtensibleSpec
import DrasiPlatform.MgmtApi.ConfigValues
import DrasiPlatform.MgmtApi.AcceptedSpecs
import DrasiPlatform.Provider.BuiltSpecs
import DrasiPlatform.Provider.ContainerEnv
import DrasiPlatform.Provider.BuiltObjects
import DrasiPlatform.Provider.Reachable
import DrasiPlatform.Provider.QueryContainerBuilder
import DrasiPlatform.Provider.Collisions
import DrasiPlatform.Provider.SpecText
import DrasiPlatform.Provider.Reapplied
import DrasiPlatform.MgmtApi.MergedSpecs
import DrasiPlatform.MgmtApi.ValidDefaults
import DrasiPlatform.Router.AllOrNothing
import DrasiPlatform.Sources.CosmosReactivator
import DrasiPlatform.Sources.DataverseReactivator
import DrasiPlatform.Sources.EventHubReactivator
import DrasiPlatform.Sources.SourceSdk
import DrasiPlatform.QueryHost.SourceChanges
import DrasiPlatform.QueryHost.FutureChanges
import DrasiPlatform.Sources.ChangeFidelity
import DrasiPlatform.Sources.KubernetesProxy
import DrasiPlatform.Sources.GremlinProxy
import DrasiPlatform.Sources.SourceProxies
import DrasiPlatform.Cli.ResultsContainer
import DrasiPlatform.Cli.WatchStream
import DrasiPlatform.Cli.Registration
import DrasiPlatform.Cli.Registry
import DrasiPlatform.View.Retention
import DrasiPlatform.View.RowKeys
import DrasiPlatform.Reactions.QueryInitialization
import DrasiPlatform.Reactions.StoredProcedures
import DrasiPlatform.Reactions.StatementText
import DrasiPlatform.Core.Forwarding
import DrasiPlatform.Reactions.Forwarders
import DrasiPlatform.Reactions.DebeziumProducer
import DrasiPlatform.Reactions.GremlinCommands
import DrasiPlatform.Provider.Monitor
import DrasiPlatform.QueryHost.DefaultLabels
import DrasiPlatform.Sources.ResultStream
import DrasiPlatform.Core.Redelivery
import DrasiPlatform.Pipeline.Stages
import DrasiPlatform.Pipeline.Delivery
import DrasiPlatform.MgmtApi.Lifecycle
import DrasiPlatform.MgmtApi.DebugSession
import DrasiPlatform.Reactions.EventWire
import DrasiPlatform.Reactions.Subscriptions
import DrasiPlatform.DevTools.ResultsView
