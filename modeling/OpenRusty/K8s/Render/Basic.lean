import Mathlib.Data.List.Dedup
import Mathlib.Data.List.Sort
import OpenRusty.Core.Config
import OpenRusty.Core.Text
import OpenRusty.K8s.Snapshot

/-!
This module contains the rendering of an Ingress snapshot into routes and upstreams
(`render/routes.rs`) and the merge of the rendered routes with the static ones (`render/mod.rs`).
-/

namespace OpenRusty

structure ServiceBackendPort where
  name : Option String := none
  number : Option Nat := none
  deriving DecidableEq, Repr

structure IngressServiceBackend where
  name : String
  port : Option ServiceBackendPort := none
  deriving DecidableEq, Repr

structure IngressBackend where
  service : Option IngressServiceBackend := none
  deriving DecidableEq, Repr

inductive PathType where
  | implementationSpecific
  | pathPrefix
  | exact
  deriving DecidableEq, Repr

structure HttpIngressPath where
  path : String := ""
  pathType : PathType := .implementationSpecific
  backend : IngressBackend
  deriving DecidableEq, Repr

structure IngressRule where
  host : Option String := none
  -- the paths of `http`, if the rule has it
  http : Option (List HttpIngressPath) := none
  deriving DecidableEq, Repr

structure IngressTls where
  hosts : List String := []
  secretName : Option String := none
  deriving DecidableEq, Repr

structure IngressSpec where
  ingressClassName : Option String := none
  defaultBackend : Option IngressBackend := none
  tls : List IngressTls := []
  rules : List IngressRule := []
  deriving DecidableEq, Repr

structure ObjectMeta where
  name : String := ""
  nspace : String := ""
  resourceVersion : String := ""
  deriving DecidableEq, Repr

structure Ingress where
  metadata : ObjectMeta := {}
  spec : IngressSpec := {}
  deriving DecidableEq, Repr

instance : ResourceMeta Ingress where
  nspace ing := ing.metadata.nspace
  name ing := ing.metadata.name
  resourceVersion ing := ing.metadata.resourceVersion

inductive RenderError where
  | badPath (owner path : String)
  | serviceMissing (owner : String)
  | backendPortMissing (owner ns svc : String)
  | namedPort (owner ns svc port : String)
  | secretMissing (owner ns name : String)
  | secretNotTls (owner ns name ty : String)
  | secretPem (owner ns name field reason : String)
  | tlsHostConflict (host a b : String)
  deriving DecidableEq, Repr

structure Target where
  ns : String
  svc : String
  port : Nat
  deriving DecidableEq, Repr

def upstreamName (t : Target) : String :=
  "ing-" ++ t.ns ++ "-" ++ t.svc ++ "-" ++ toString t.port

def endpoint (t : Target) : String :=
  t.svc ++ "." ++ t.ns ++ ".svc.cluster.local:" ++ toString t.port

def backendTarget (owner ns : String) (backend : IngressBackend) : Except RenderError Target :=
  match backend.service with
  | none => .error (.serviceMissing owner)
  | some service =>
    match service.port with
    | none => .error (.backendPortMissing owner ns service.name)
    | some port =>
      match port.number with
      | some number => .ok { ns := ns, svc := service.name, port := number }
      | none => .error (.namedPort owner ns service.name (port.name.getD ""))

namespace Snapshot

def iter {T : Type} (snap : Snapshot T) : List ((String × String) × T) :=
  (snap.items.entries.map fun e => (e.1, e.2)).insertionSort fun a b =>
    a.1.1 < b.1.1 ∨ a.1.1 = b.1.1 ∧ a.1.2 ≤ b.1.2

end Snapshot

def owned (snap : Snapshot Ingress) (ingressClass : String) : List (String × Ingress) :=
  (snap.iter.filter fun e => e.2.spec.ingressClassName == some ingressClass).map fun e =>
    ("ingress " ++ e.1.1 ++ "/" ++ e.1.2, e.2)

def normalizeHost (host : String) : String :=
  String.ofList (((host.toList.dropWhile isWhiteSpace).rdropWhile isWhiteSpace).map Char.toLower)

def renderDefault (t : Target) : RouteConfig :=
  { pathPrefix := "/", host := none, exact := false, upstream := upstreamName t, timeoutMs := 0 }

def renderPath (rule : IngressRule) (path : HttpIngressPath) (t : Target) : RouteConfig where
  pathPrefix := path.path
  host := rule.host.map normalizeHost
  exact := path.pathType == .exact
  upstream := upstreamName t
  timeoutMs := 0

def renderRule (owner ns : String) (rule : IngressRule) : Except RenderError (List RouteConfig) :=
  (rule.http.getD []).mapM fun path =>
    if path.path.toList.head? = some '/' then
      (backendTarget owner ns path.backend).map (renderPath rule path)
    else
      .error (.badPath owner path.path)

def renderIngress (x : String × Ingress) : Except RenderError (List RouteConfig) := do
  let default ← x.2.spec.defaultBackend.toList.mapM fun backend =>
    (backendTarget x.1 x.2.metadata.nspace backend).map renderDefault
  let rules ← x.2.spec.rules.mapM (renderRule x.1 x.2.metadata.nspace)
  return default ++ rules.flatten

def renderRoutes (snap : Snapshot Ingress) (ingressClass : String)
    : Except RenderError (List RouteConfig) :=
  ((owned snap ingressClass).mapM renderIngress).map List.flatten

def backends (ing : Ingress) : List IngressBackend :=
  ing.spec.defaultBackend.toList
    ++ ing.spec.rules.flatMap fun rule => (rule.http.getD []).map HttpIngressPath.backend

def ingressTargets (x : String × Ingress) : Except RenderError (List Target) :=
  (backends x.2).mapM (backendTarget x.1 x.2.metadata.nspace)

def Target.le (a b : Target) : Bool :=
  decide (a.ns < b.ns ∨ a.ns = b.ns ∧ (a.svc < b.svc ∨ a.svc = b.svc ∧ a.port ≤ b.port))

def renderTargets (snap : Snapshot Ingress) (ingressClass : String)
    : Except RenderError (List Target) :=
  ((owned snap ingressClass).mapM ingressTargets).map fun targets =>
    targets.flatten.dedup.insertionSort fun a b => a.le b

def buildUpstream (t : Target) : UpstreamConfig where
  name := upstreamName t
  balancer := .swrr
  retries := 0
  retryOnTimeout := false
  connectTimeoutMs := 2000
  poolIdleTimeoutMs := 60000
  peers := []
  endpoints := [endpoint t]
  health := { maxFails := 0 }

def renderUpstreams (snap : Snapshot Ingress) (ingressClass : String)
    : Except RenderError (List UpstreamConfig) :=
  (renderTargets snap ingressClass).map fun targets => targets.map buildUpstream

structure RouteKey where
  host : Option String
  pathPrefix : String
  exact : Bool
  deriving DecidableEq, Repr

def RouteKey.of (route : RouteConfig) : RouteKey where
  host := route.host.map normalizeHost
  pathPrefix := route.pathPrefix
  exact := route.exact

structure Conflict where
  key : RouteKey
  a : String
  b : String
  deriving DecidableEq, Repr

def checkRoutes (label : String) (i : Nat) (routes : List RouteConfig)
    (seen : AList fun _ : RouteKey => String)
    : Except Conflict (AList fun _ : RouteKey => String) :=
  match routes with
  | [] => .ok seen
  | route :: routes =>
    let key := RouteKey.of route
    let here := label ++ "[" ++ toString i ++ "]"
    match seen.lookup key with
    | some there => .error { key := key, a := there, b := here }
    | none => checkRoutes label (i + 1) routes (seen.insert key here)

def merge (staticRoutes rendered : List RouteConfig) : Except Conflict (List RouteConfig) := do
  let seen ← checkRoutes "static" 0 staticRoutes ∅
  let _ ← checkRoutes "rendered" 0 rendered seen
  return staticRoutes ++ rendered

end OpenRusty
