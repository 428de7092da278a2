import OpenRusty.Core.Context
import OpenRusty.Core.Phase

/-!
This module contains the configuration (`config.rs` and the modules of its sections), with the defaults
of the fields. `Config` is the part that a runtime is built from, `GatewayConfig` the whole file.
-/

namespace OpenRusty

inductive BalancerKind where
  | swrr
  | ipHash
  | leastConn
  deriving DecidableEq, Repr

structure PeerConfig where
  addr : SocketAddr
  weight : Nat := 1
  deriving DecidableEq, Repr

structure ActiveHealthConfig where
  intervalMs : Nat := 1000
  timeoutMs : Nat := 1000
  path : String := "/"
  unhealthyThreshold : Nat := 2
  healthyThreshold : Nat := 2
  deriving DecidableEq, Repr

structure HealthConfig where
  maxFails : Nat := 3
  failWindowS : Nat := 10
  failTimeoutS : Nat := 10
  active : Option ActiveHealthConfig := none
  deriving DecidableEq, Repr

structure UpstreamTlsConfig where
  serverName : String
  caCert : Option String := none
  clientCert : Option String := none
  clientKey : Option String := none
  insecureSkipVerify : Bool := false
  deriving DecidableEq, Repr

structure UpstreamConfig where
  name : String
  balancer : BalancerKind := .swrr
  retries : Nat := 0
  retryOnTimeout : Bool := false
  connectTimeoutMs : Nat := 2000
  poolIdleTimeoutMs : Nat := 60000
  peers : List PeerConfig := []
  endpoints : List String := []
  tls : Option UpstreamTlsConfig := none
  health : HealthConfig := {}
  deriving DecidableEq, Repr

structure RouteConfig where
  pathPrefix : String
  host : Option String := none
  exact : Bool := false
  upstream : String
  timeoutMs : Nat := 0
  deriving DecidableEq, Repr

structure Config where
  upstreams : List UpstreamConfig := []
  routes : List RouteConfig := []
  deriving DecidableEq, Repr

inductive ListenerRole where
  | inbound
  | outbound
  | admin
  deriving DecidableEq, Repr

namespace ListenerRole

def asStr (role : ListenerRole) : String :=
  match role with
  | .inbound => "inbound"
  | .outbound => "outbound"
  | .admin => "admin"

end ListenerRole

structure ListenerConfig where
  role : ListenerRole
  listen : SocketAddr
  http1Only : Bool := false
  transparent : Bool := false
  detectTimeoutMs : Nat := 3000
  tls : Bool := false
  tlsCert : Option String := none
  tlsKey : Option String := none
  deriving DecidableEq, Repr

structure ServerConfig where
  listen : SocketAddr
  logLevel : String := "warn"
  logFile : Option String := none
  http1Only : Bool := false
  listeners : List ListenerConfig := []
  shutdownGraceMs : Nat := 5000
  deriving DecidableEq, Repr

structure AdminConfig where
  token : Option String := none
  deriving DecidableEq, Repr

structure PluginsConfig where
  dir : String := ""
  order : List String := []
  timeoutMs : Nat := 50
  maxMemoryMb : Nat := 16
  onFailure : FailPolicy := .failOpen
  settings : List (String × List (String × String)) := []
  instancePoolSize : Nat := 1000
  logOnNoRoute : Bool := true
  deriving DecidableEq, Repr

structure DynamicRoute where
  method : String
  path : String
  module : String
  deriving DecidableEq, Repr

structure DynamicConfig where
  dir : String := ""
  timeoutMs : Nat := 50
  maxMemoryMb : Nat := 16
  onFailure : FailPolicy := .failOpen
  maxBodyBytes : Nat := 1024 * 1024
  settings : List (String × List (String × String)) := []
  routes : List DynamicRoute := []
  deriving DecidableEq, Repr

structure IngressConfig where
  enabled : Bool := false
  ingressClass : String := "openrusty"
  kubeconfig : String := ""
  namespaces : List String := []
  deriving DecidableEq, Repr

inductive EgressMode where
  | direct
  | gateway
  | deny
  deriving DecidableEq, Repr

structure EgressConfig where
  mode : EgressMode := .direct
  gateway : String := ""
  deriving DecidableEq, Repr

structure GatewayConfig extends Config where
  server : ServerConfig
  admin : AdminConfig := {}
  plugins : PluginsConfig := {}
  dynamic : Option DynamicConfig := none
  ingress : IngressConfig := {}
  egress : EgressConfig := {}
  deriving DecidableEq, Repr

end OpenRusty
