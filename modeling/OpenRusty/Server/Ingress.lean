import OpenRusty.K8s.Render.Tls
import OpenRusty.Lib.Fallible
import OpenRusty.Server.State

/-!
This module contains the application of an Ingress pair (`ingress/mod.rs`): render, merge with the static
routes, compose with the static upstreams, resolve the endpoints, build the TLS material of the upstreams
and rebuild the runtime. Every failure keeps the previous runtime.
-/

namespace OpenRusty

def buildIngressConfig (base : Config) (routes : List RouteConfig)
    (renderedUpstreams : List UpstreamConfig)
    : Config :=
  let taken := base.upstreams.map UpstreamConfig.name
  { base with
    routes := routes
    upstreams := base.upstreams ++ renderedUpstreams.filter fun u => !taken.contains u.name }

def buildTlsPlans (build : UpstreamTlsConfig → Except String Unit) (cfg : Config)
    : Except String Unit :=
  Except.forEach
    (fun _ uc =>
      match uc.tls with
      | none => .ok ()
      | some tc => (build tc).mapError fun detail => "upstream '" ++ uc.name ++ "': " ++ detail)
    0 cfg.upstreams

abbrev IngressPair := Snapshot Ingress × Snapshot Secret

namespace GatewayConfig

def buildIngressConfig (base : GatewayConfig) (routes : List RouteConfig)
    (renderedUpstreams : List UpstreamConfig)
    : GatewayConfig :=
  { base with toConfig := OpenRusty.buildIngressConfig base.toConfig routes renderedUpstreams }

/-- The part of an application up to the composed configuration: every failure keeps what there was. -/
def composePair (decode : String → Except String Bytes) (base : GatewayConfig) (pair : IngressPair)
    : Option GatewayConfig :=
  let ingressClass := base.ingress.ingressClass
  match renderRoutes pair.1 ingressClass with
  | .error _ => none
  | .ok renderedRoutes =>
    match renderUpstreams pair.1 ingressClass with
    | .error _ => none
    | .ok renderedUpstreams =>
      match renderTls decode pair.1 pair.2 ingressClass with
      | .error _ => none
      | .ok _ =>
        match merge base.routes renderedRoutes with
        | .error _ => none
        | .ok mergedRoutes => some (base.buildIngressConfig mergedRoutes renderedUpstreams)

def resolve (lookupHost : String → Option (List SocketAddr)) (cfg : GatewayConfig)
    : GatewayConfig :=
  { cfg with toConfig := resolveConfig lookupHost cfg.toConfig }

end GatewayConfig

def applyPair (decode : String → Except String Bytes) (build : UpstreamTlsConfig → Except String Unit)
    (lookupHost : String → Option (List SocketAddr)) (h : HealthRegistry) (base : GatewayConfig) (generation : Nat)
    (pair : IngressPair)
    : Option (HealthRegistry × RuntimeSnapshot) :=
  match base.composePair decode pair with
  | none => none
  | some composed =>
    let cfg := composed.resolve lookupHost
    match buildTlsPlans build cfg.toConfig with
    | .error _ => none
    | .ok _ => some (applyRuntime h cfg.toConfig generation)

end OpenRusty
