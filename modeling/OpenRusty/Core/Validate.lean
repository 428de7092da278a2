import OpenRusty.Core.Config
import OpenRusty.Core.Text
import OpenRusty.Lib.Fallible

/-!
This module contains the loading of the configuration file and its validation (`config.rs` and the
modules of its sections): every rule with its message, in the order of the checks. The file system,
the parser of the file, the name lookup and the escaped form of a text inside of a message come from
the outside.
-/

namespace OpenRusty

inductive ConfigError where
  | io (detail : String)
  | parse (detail : String)
  | invalid (message : String)
  deriving DecidableEq, Repr

namespace ConfigError

def toString (e : ConfigError) : String :=
  match e with
  | .io detail => "io error: " ++ detail
  | .parse detail => "toml parse error: " ++ detail
  | .invalid message => "invalid configuration: " ++ message

end ConfigError

structure ConfigEnv where
  lookupHost : String → Option (List SocketAddr)
  debug : String → String

def require (c : Bool) (message : String) : Except ConfigError Unit :=
  Except.ensure c (.invalid message)

def AdminConfig.effectiveToken (cfg : AdminConfig) : Option String :=
  (cfg.token.map trim).filter fun t => !t.isEmpty

namespace DynamicConfig

def isAsciiAlphanumeric (c : Char) : Bool :=
  'a' ≤ c && c ≤ 'z' || 'A' ≤ c && c ≤ 'Z' || '0' ≤ c && c ≤ '9'

def validModuleName (name : String) : Bool :=
  match name.toList with
  | [] => false
  | c :: cs =>
    isAsciiAlphanumeric c && cs.all fun c => isAsciiAlphanumeric c || ['.', '_', '-'].contains c

def isTchar (c : Char) : Bool :=
  isAsciiAlphanumeric c || "!#$%&'*+-.^_`|~".toList.contains c

def normalizeMethod (method : String) : Option String :=
  let m := trim method
  if m.isEmpty || decide (32 < len m) || !m.toList.all isTchar then
    none
  else
    some (String.ofList (m.toList.map Char.toUpper))

def maxRoutePathLen : Nat := 1024

def isAsciiControl (c : Char) : Bool := decide (c.toNat < 0x20 ∨ c.toNat = 0x7f)

def normalizeRoutePath (path : String) : Option String :=
  if !startsWith path "/" || decide (maxRoutePathLen < len path)
      || path.toList.any fun c => isAsciiControl c || c == '?' || c == '#' then
    none
  else
    some path

def basePath (path : String) : String :=
  if "/*".toList.isSuffixOf path.toList then String.ofList (path.toList.dropLast.dropLast) else path

def validate (env : ConfigEnv) (d : DynamicConfig) : Except ConfigError Unit := do
  require (d.timeoutMs != 0) "dynamic.timeout_ms must be > 0"
  require (d.maxMemoryMb != 0) "dynamic.max_memory_mb must be > 0"
  require (d.maxBodyBytes != 0) "dynamic.max_body_bytes must be > 0"
  require (!isBlank d.dir) "dynamic.dir must not be empty"
  Except.forEach
    (fun _ (key, _) => require (validModuleName key)
      ("dynamic.settings key " ++ env.debug key ++ " must match ^[A-Za-z0-9][A-Za-z0-9._-]*$"))
    0 d.settings
  Except.forFresh
    (fun r => (normalizeMethod r.method, basePath r.path))
    (fun r => do
      require (normalizeMethod r.method).isSome
        ("dynamic.routes method " ++ env.debug r.method ++ " is not a valid HTTP method")
      require (normalizeRoutePath r.path).isSome
        ("dynamic.routes path " ++ env.debug r.path
          ++ " must start with '/' (trailing '/*' = prefix match)")
      require (validModuleName r.module)
        ("dynamic.routes module " ++ env.debug r.module
          ++ " must match ^[A-Za-z0-9][A-Za-z0-9._-]*$"))
    (fun _ => .ok ())
    (fun r => .invalid ("dynamic.routes duplicate binding " ++ r.method ++ " " ++ r.path))
    [] d.routes

end DynamicConfig

namespace ListenerConfig

def atIndex (i : Nat) (text : String) : String := "listeners[" ++ ToString.toString i ++ "] " ++ text

def validate (ingressEnabled : Bool) (i : Nat) (l : ListenerConfig) : Except ConfigError Unit := do
  require (!(l.transparent && l.detectTimeoutMs == 0))
    (atIndex i "detect_timeout_ms must be > 0 when transparent is true")
  if l.role = .outbound then
    return ()
  require (!(l.role != .admin && l.transparent && l.tls))
    (atIndex i "transparent and tls are mutually exclusive (v1 has no TLS-over-transparent)")
  if !l.tls then
    require (!(l.tlsCert.isSome || l.tlsKey.isSome)) (atIndex i "tls_cert/tls_key require tls = true")
  else if !(l.tlsCert.isSome && l.tlsKey.isSome) && !ingressEnabled then
    require (l.tlsCert.isSome == l.tlsKey.isSome)
      (atIndex i "tls = true needs BOTH tls_cert and tls_key, got only one")
    require false
      (atIndex i ("tls = true needs a certificate source: static tls_cert + tls_key, or [ingress] "
        ++ "enabled (rendered secrets)"))

end ListenerConfig

def validateListeners (ingressEnabled : Bool) (i : Nat) (roles : List ListenerRole)
    (addrs : List SocketAddr) (listeners : List ListenerConfig)
    : Except ConfigError Unit :=
  match listeners with
  | [] => .ok ()
  | l :: listeners => do
    require (!roles.contains l.role)
      (ListenerConfig.atIndex i ("repeats role " ++ l.role.asStr ++ "; one listener per role"))
    require (!addrs.contains l.listen)
      (ListenerConfig.atIndex i
        ("repeats address " ++ l.listen.toString ++ "; addresses must be unique"))
    l.validate ingressEnabled i
    validateListeners ingressEnabled (i + 1) (l.role :: roles) (l.listen :: addrs) listeners

def IngressConfig.validate (cfg : IngressConfig) : Except ConfigError Unit := do
  require (!isBlank cfg.ingressClass)
    "ingress.ingress_class must not be empty (ingresses are matched by class)"
  Except.forEach
    (fun i ns => require (!isBlank ns)
      ("ingress.namespaces[" ++ ToString.toString i ++ "] must not be empty"))
    0 cfg.namespaces

namespace EgressConfig

def resolveGateway (env : ConfigEnv) (cfg : EgressConfig) : Option SocketAddr :=
  (env.lookupHost cfg.gateway).bind List.head?

def validate (env : ConfigEnv) (cfg : EgressConfig) : Except ConfigError Unit := do
  if cfg.mode = .gateway then
    require (!isBlank cfg.gateway)
      ("egress.gateway must be set when egress.mode = \"gateway\" (host:port of the "
        ++ "upstream gateway)")
    require (cfg.resolveGateway env).isSome
      ("egress.gateway must be a resolvable host:port, got " ++ env.debug cfg.gateway)

end EgressConfig

def UpstreamTlsConfig.validate (upstreamName : String) (cfg : UpstreamTlsConfig)
    : Except ConfigError Unit := do
  require (!isBlank cfg.serverName)
    ("upstream " ++ upstreamName ++ " tls.server_name must not be empty")
  require (!(cfg.caCert.isNone && !cfg.insecureSkipVerify))
    ("upstream " ++ upstreamName ++ " tls requires ca_cert or insecure_skip_verify = true")
  require (cfg.clientCert.isSome == cfg.clientKey.isSome)
    ("upstream " ++ upstreamName ++ " tls.client_cert and tls.client_key must be set together")

def ActiveHealthConfig.validate (upstreamName : String) (active : ActiveHealthConfig)
    : Except ConfigError Unit := do
  let field := "upstream " ++ upstreamName ++ " health.active."
  require (active.intervalMs != 0) (field ++ "interval_ms must be > 0")
  require (active.timeoutMs != 0) (field ++ "timeout_ms must be > 0")
  require (active.unhealthyThreshold != 0) (field ++ "unhealthy_threshold must be >= 1")
  require (active.healthyThreshold != 0) (field ++ "healthy_threshold must be >= 1")
  require (startsWith active.path "/") (field ++ "path must start with '/'")

def UpstreamConfig.validate (up : UpstreamConfig) : Except ConfigError Unit := do
  require (!(up.peers.isEmpty && up.endpoints.isEmpty)) ("upstream " ++ up.name ++ " has no peers")
  Except.forEach
    (fun i ep => require (!isBlank ep)
      ("upstream " ++ up.name ++ " endpoint #" ++ ToString.toString i ++ " must not be empty"))
    0 up.endpoints
  Except.forEach
    (fun i p => require (p.weight != 0)
      ("upstream " ++ up.name ++ " peer #" ++ ToString.toString i ++ " has zero weight"))
    0 up.peers
  match up.tls with
  | some tls => tls.validate up.name
  | none => pure ()
  match up.health.active with
  | some active => active.validate up.name
  | none => pure ()

def RouteConfig.validate (upstreams : List UpstreamConfig) (i : Nat) (route : RouteConfig)
    : Except ConfigError Unit := do
  let place := "route #" ++ ToString.toString i
  require (startsWith route.pathPrefix "/") (place ++ " path_prefix must start with '/'")
  match route.host with
  | some h => require (!isBlank h) (place ++ " host must not be empty")
  | none => pure ()
  require (upstreams.any fun u => u.name == route.upstream)
    (place ++ " references unknown upstream: " ++ route.upstream)

namespace Config

def validateUpstreams (upstreams : List UpstreamConfig) : Except ConfigError Unit :=
  Except.forFresh UpstreamConfig.name
    (fun up => require (!up.name.isEmpty) "upstream with empty name")
    UpstreamConfig.validate
    (fun up => .invalid ("duplicate upstream name: " ++ up.name))
    [] upstreams

def validate (cfg : Config) : Except ConfigError Unit := do
  require (!(cfg.upstreams.isEmpty && !cfg.routes.isEmpty)) "routes defined but no upstreams"
  validateUpstreams cfg.upstreams
  Except.forEach (RouteConfig.validate cfg.upstreams) 0 cfg.routes

end Config

namespace GatewayConfig

def validateSections (env : ConfigEnv) (cfg : GatewayConfig) : Except ConfigError Unit := do
  require (["trace", "debug", "info", "warn", "error"].contains cfg.server.logLevel)
    "server.log_level must be trace|debug|info|warn|error"
  require (cfg.plugins.timeoutMs != 0) "plugins.timeout_ms must be > 0"
  require (cfg.plugins.maxMemoryMb != 0) "plugins.max_memory_mb must be > 0"
  match cfg.dynamic with
  | some d => d.validate env
  | none => pure ()
  validateListeners cfg.ingress.enabled 0 [] [] cfg.server.listeners
  cfg.ingress.validate
  cfg.egress.validate env
  Except.forFresh id (fun _ => .ok ()) (fun _ => .ok ())
    (fun name => .invalid ("plugins.order lists plugin " ++ name ++ " more than once"))
    [] cfg.plugins.order

def validate (env : ConfigEnv) (cfg : GatewayConfig) : Except ConfigError Unit := do
  cfg.validateSections env
  cfg.toConfig.validate

end GatewayConfig

structure LoadEnv extends ConfigEnv where
  raw : Except String String
  parse : String → Except String GatewayConfig
  dynamicDir : Option String

def applyDynamicDirEnv (dynamicDir : Option String) (dynamic : Option DynamicConfig)
    : Option DynamicConfig :=
  match dynamicDir.map trim with
  | none => dynamic
  | some dir =>
    if dir.isEmpty then
      dynamic
    else
      match dynamic with
      | some d => some { d with dir := dir }
      | none => some { dir := dir }

def loadConfig (env : LoadEnv) : Except ConfigError GatewayConfig := do
  let raw ← env.raw.mapError .io
  let cfg ← (env.parse raw).mapError .parse
  let cfg := { cfg with dynamic := applyDynamicDirEnv env.dynamicDir cfg.dynamic }
  cfg.validate env.toConfigEnv
  return cfg

end OpenRusty
