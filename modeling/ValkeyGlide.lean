import ValkeyGlide.Cluster.Vote
import ValkeyGlide.Connection.Desync
import ValkeyGlide.Connection.VectoredSink
import ValkeyGlide.Cache.PendingFills
import ValkeyGlide.Cache.LfuRuns
import ValkeyGlide.Cache.MGet
import ValkeyGlide.Compression.Streaming
import ValkeyGlide.Pool.Borrowing
import ValkeyGlide.Pool.Reset
import ValkeyGlide.Scope.Tracking
import ValkeyGlide.Scope.Exclusive
import ValkeyGlide.Scope.Acquisition
import ValkeyGlide.Compression.Rebuild
import ValkeyGlide.Compression.Responses
import ValkeyGlide.Client.BreakerProtocol
import ValkeyGlide.Client.SessionDatabase
import ValkeyGlide.Rdma.Lifecycle
import ValkeyGlide.Rdma.Peers
import ValkeyGlide.Resp.Agreement
import ValkeyGlide.Pipeline.Gather
import ValkeyGlide.Pipeline.Discipline
import ValkeyGlide.Pipeline.AtomicRoute
import ValkeyGlide.Cluster.Attempts
import ValkeyGlide.Cluster.RecoveryQueue
import ValkeyGlide.Cluster.RefreshErrors
import ValkeyGlide.Cluster.MovedUpdates
import ValkeyGlide.Cluster.InflightSlots
import ValkeyGlide.Cluster.Redirects
import ValkeyGlide.Cluster.AggregateOrder
import ValkeyGlide.Cluster.AggregateAgree
import ValkeyGlide.Cluster.Recombine
import ValkeyGlide.Cluster.NodeSlots
import ValkeyGlide.Cluster.AddressIndex
import ValkeyGlide.Scan.Finish
import ValkeyGlide.Client.Standalone
import ValkeyGlide.Cluster.ConnectionGauge
import ValkeyGlide.Socket.Writer
import ValkeyGlide.Iam.DirectClient
