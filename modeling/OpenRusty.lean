import OpenRusty.Lib.FinMap
import OpenRusty.Lib.Fallible
import OpenRusty.Lib.Join
import OpenRusty.Lib.Machine
import OpenRusty.Lib.Pool
import OpenRusty.Lib.TimedMap
import OpenRusty.Lib.Word
import OpenRusty.Core.Config
import OpenRusty.Core.Context
import OpenRusty.Core.Phase
import OpenRusty.K8s.Render.Basic
import OpenRusty.K8s.Render.Lemmas
import OpenRusty.K8s.Snapshot
import OpenRusty.K8s.Watch
import OpenRusty.K8s.WatchLemmas
import OpenRusty.Proxy.Balancer
import OpenRusty.Proxy.Health.Active
import OpenRusty.Proxy.Health.Basic
import OpenRusty.Proxy.Health.InFlight
import OpenRusty.Proxy.Health.Lemmas
import OpenRusty.Proxy.Upstream
import OpenRusty.Server.Ingress
import OpenRusty.Server.IngressLemmas
import OpenRusty.Server.Pipeline.Attribution
import OpenRusty.Server.Pipeline.Basic
import OpenRusty.Server.Pipeline.InFlight
import OpenRusty.Server.Pipeline.Lemmas
import OpenRusty.Server.Pipeline.Selection
import OpenRusty.Server.State
import OpenRusty.Wasm.HostState.Alone
import OpenRusty.Wasm.HostState.Basic
import OpenRusty.Wasm.HostState.Concurrent
import OpenRusty.Wasm.HostState.ConcurrentLemmas
import OpenRusty.Wasm.HostState.Lemmas
import OpenRusty.Wasm.HostState.Quota
import OpenRusty.Wasm.HostState.Refinement
import OpenRusty.Wasm.Session.Basic
import OpenRusty.Wasm.Session.Chain
import OpenRusty.Wasm.Session.Refinement
import OpenRusty.Server.Route
import OpenRusty.Server.RouteLemmas
import OpenRusty.Lib.ArcSwap
import OpenRusty.Wasm.Registry.Basic
import OpenRusty.Wasm.Registry.Lemmas
import OpenRusty.Wasm.Registry.Serial
import OpenRusty.Core.Validate
import OpenRusty.K8s.Render.Tls
import OpenRusty.Core.ValidateLemmas
import OpenRusty.Server.ComposeLemmas
import OpenRusty.Server.DynamicRoutes
import OpenRusty.Server.Reload.Basic
import OpenRusty.Server.Reload.Lemmas
import OpenRusty.Server.Reload.Order
import OpenRusty.Server.Reload.Pinning
import OpenRusty.Server.Reload.Runtime
import OpenRusty.Server.Slots
import OpenRusty.Server.SlotsLemmas
import OpenRusty.Core.Http
import OpenRusty.Wasm.Rewrite
import OpenRusty.Server.Handshake
import OpenRusty.Server.HandshakeLemmas
import OpenRusty.Wasm.Dynamic
import OpenRusty.Server.ShortCircuit
import OpenRusty.Server.ShortCircuitLemmas
import OpenRusty.Server.BodyFilter
import OpenRusty.Server.Lifecycle
import OpenRusty.Server.LifecycleLemmas
import OpenRusty.Server.Bindings
import OpenRusty.Server.DynamicRoutesLemmas
import OpenRusty.Server.ReconcileLemmas
import OpenRusty.Lib.Linearize
import OpenRusty.Server.RouteCalls
import OpenRusty.Server.RouteCallsLemmas
import OpenRusty.Proxy.Health.Passive
import OpenRusty.Proxy.Health.Window
import OpenRusty.Lib.Runs
import OpenRusty.Proxy.Health.Automaton
import OpenRusty.Proxy.Health.Reregister
import OpenRusty.Proxy.Health.Calls
import OpenRusty.Proxy.Health.CallsLemmas
import OpenRusty.Proxy.Health.CallsOrder
import OpenRusty.Wasm.Resolve
import OpenRusty.Wasm.ResolveLemmas
import OpenRusty.Server.Retry
import OpenRusty.Server.RetryLemmas
import OpenRusty.Server.RetryDiscipline
import OpenRusty.Lib.Rotation
import OpenRusty.Proxy.Swrr
import OpenRusty.Server.Pipeline.Swrr
import OpenRusty.Proxy.LeastConn
import OpenRusty.Server.Pipeline.Pick
import OpenRusty.Lib.LittleEndian
import OpenRusty.Wasm.Tlv
import OpenRusty.Wasm.Mem
import OpenRusty.Wasm.Scan.Basic
import OpenRusty.Wasm.Scan.Lemmas
import OpenRusty.Wasm.Scan.Contract
import OpenRusty.Sdk.Host
import OpenRusty.Sdk.Scan
import OpenRusty.Core.Num
import OpenRusty.Core.Net
import OpenRusty.Server.Init.Basic
import OpenRusty.Lib.Chains
import OpenRusty.Server.Init.Iptables
import OpenRusty.Server.Init.Exec
import OpenRusty.Server.Init.Lemmas
import OpenRusty.Server.Init.Accepted
import OpenRusty.Server.Init.Correct
import OpenRusty.Server.Inject.Basic
import OpenRusty.Server.Inject.Lemmas
import OpenRusty.Server.Inject.Config
import OpenRusty.Server.Inject.ConfigLemmas
import OpenRusty.Server.Inject.Agree
import OpenRusty.Proxy.Detect
import OpenRusty.Server.Transparent.Basic
import OpenRusty.Server.Transparent.Egress
import OpenRusty.Proxy.Client
import OpenRusty.Server.Clients.Basic
import OpenRusty.Server.Clients.Configured
import OpenRusty.Server.Clients.Serial
import OpenRusty.Server.BodyStream
import OpenRusty.Server.Transparent.Sniff
import OpenRusty.Server.HeaderPolicy
import OpenRusty.Server.IngressPrefix
import OpenRusty.Lib.Matching
import OpenRusty.Server.SdListen
import OpenRusty.Server.SdListenLemmas
import OpenRusty.Server.Transparent.Counted
import OpenRusty.Lib.Yaml
import OpenRusty.Server.Inject.Document
import OpenRusty.Server.Inject.Pieces
import OpenRusty.Server.Inject.Template
import OpenRusty.Lib.Lexer
import OpenRusty.Lib.TomlString
import OpenRusty.Lib.Toml
import OpenRusty.Server.Inject.Rendered
import OpenRusty.Sdk.TwoPhase
import OpenRusty.K8s.Stream
import OpenRusty.Lib.Claims
import OpenRusty.K8s.Render.TlsLemmas
import OpenRusty.Server.Status
import OpenRusty.Server.DynamicAdmin
import OpenRusty.Server.Pipeline.Overflow
import OpenRusty.Lib.Json
import OpenRusty.Scheduler.Choice
import OpenRusty.Scheduler.Balancer
import OpenRusty.Scheduler.Capacity
import OpenRusty.Lib.Exposition
import OpenRusty.Server.Metrics.Basic
import OpenRusty.Server.Metrics.Lemmas
import OpenRusty.Core.ContextLemmas
import OpenRusty.Server.Metrics.Series
import OpenRusty.Server.Metrics.Faithful
import OpenRusty.Lib.Arena
import OpenRusty.Sdk.AllocHeap
import OpenRusty.Scheduler.Sticky
import OpenRusty.Lib.Histogram
import OpenRusty.Lib.WatchCell
import OpenRusty.Server.Metrics.Collector
import OpenRusty.Server.Metrics.Scraped
import OpenRusty.Server.Shutdown.Basic
import OpenRusty.Server.Shutdown.Lemmas
import OpenRusty.Server.Shutdown.Report
import OpenRusty.Lib.Percent
import OpenRusty.Lib.Utf8
import OpenRusty.Scheduler.TaskKey
import OpenRusty.Server.Admin.Auth
import OpenRusty.Server.Admin.Entered
import OpenRusty.Server.Tls.Resolver
import OpenRusty.Server.Tls.Rotation
import OpenRusty.Server.ActiveProbe
import OpenRusty.Server.Dynamic.Plane
import OpenRusty.Server.Dynamic.Removal
import OpenRusty.Server.Check
import OpenRusty.Server.IngressRun.Basic
import OpenRusty.Server.IngressRun.Converged
