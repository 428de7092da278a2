import OpenRusty.Lib.Percent
import OpenRusty.Server.Admin.Auth
import OpenRusty.Server.Reload.Lemmas
import OpenRusty.Server.SdListen

/-!
This module contains the placement of the management plane (`app.rs`, `listeners.rs`): the routes of the
routers, the router that each listener serves, and the requests that arrive at the listeners while the
control plane goes on. The guard loads the token once, so a request is judged by the token of that moment.
-/

namespace OpenRusty

def IpAddr.isLoopback (ip : IpAddr) : Bool :=
  match ip with
  | .v4 octets => octets >>> 24 == 127
  | .v6 octets => octets == 1

namespace App

open AdminAuth ControlPlane

inductive Handler where
  | status
  | reloadEndpoint
  | metricsEndpoint
  | ready
  | live
  | shutdownEndpoint
  | list
  | register (name : String)
  | unregister (name : String)
  | handleDynamic (name : String)
  -- the extractor of the path refuses it before the handler is called
  | invalidPathParam
  | fallback
  deriving DecidableEq, Repr

def Handler.isAdmin (h : Handler) : Bool :=
  match h with
  | .handleDynamic _ => false
  | .invalidPathParam => false
  | .fallback => false
  | _ => true

abbrev MethodRouter := List (String × Handler)

/-- A handler for GET also takes HEAD. -/
def get (h : Handler) : MethodRouter := [("GET", h), ("HEAD", h)]

def post (h : Handler) : MethodRouter := [("POST", h)]

def segmentAfter (base path : String) : Option String :=
  (Inject.stripPrefix path base).filter fun name => !name.isEmpty && !name.toList.contains '/'

def pathParam (segment : String) : Option String :=
  String.fromUTF8? ⟨(Percent.unescape segment.toUTF8.data.toList).toArray⟩

example : pathParam "caf%C3%A9+%2" = some "café+%2" := by
  decide +kernel

def named (segment : String) (handler : String → Handler) : Handler :=
  (pathParam segment).elim .invalidPathParam handler

def registrationRoutes (path : String) : Option MethodRouter :=
  if path = "/openrusty/dynamic" then
    some (get .list)
  else
    (segmentAfter "/openrusty/dynamic/" path).map fun segment =>
      [("PUT", named segment .register), ("DELETE", named segment .unregister)]

def managementRoutes : List (String × MethodRouter) :=
  [("/openrusty/status", get .status),
    ("/openrusty/reload", post .reloadEndpoint),
    ("/openrusty/metrics", get .metricsEndpoint),
    ("/openrusty/ready", get .ready),
    ("/openrusty/live", get .live),
    ("/openrusty/shutdown", post .shutdownEndpoint)]

def adminRoutes (dynamic : Bool) (path : String) : Option MethodRouter :=
  (managementRoutes.lookup path).or (if dynamic then registrationRoutes path else none)

def dynamicRoutes (dynamic : Bool) (path : String) : Option MethodRouter :=
  if dynamic then
    (segmentAfter "/api/v1/dynamic/" path).map fun segment => post (named segment .handleDynamic)
  else
    none

structure Router where
  -- whether the management routes are mounted
  admin : Bool
  -- whether the dynamic API and the fallback are
  data : Bool
  -- whether there was a dynamic section when the router was built
  dynamic : Bool
  deriving DecidableEq, Repr

def adminRouter (dynamic : Bool) : Router := { admin := true, data := false, dynamic := dynamic }

def dataRouter (dynamic : Bool) : Router := { admin := false, data := true, dynamic := dynamic }

def router (dynamic : Bool) : Router := { admin := true, data := true, dynamic := dynamic }

structure Mount where
  listener : ListenerConfig
  router : Router
  deriving DecidableEq, Repr

def mounts (dynamic : Bool) (listeners : List ListenerConfig) : List Mount :=
  let hasAdmin := listeners.any fun l => l.role == .admin
  listeners.map fun l => {
    listener := l
    router :=
      match l.role with
      | .admin => adminRouter dynamic
      | .inbound | .outbound => if hasAdmin then dataRouter dynamic else router dynamic
  }

structure Request where
  method : String
  path : String
  headers : RawHeaders
  remote : SocketAddr

inductive Progress where
  -- matched by the management routes and about to be checked
  | guarded (routes : MethodRouter)
  | entered (h : Handler)
  | answered (h : Handler)
  | refused (status : Nat)
  deriving DecidableEq, Repr

def Progress.entered? (p : Progress) : Option Handler :=
  match p with
  | .entered h => some h
  | .answered h => some h
  | _ => none

def MethodRouter.enter (routes : MethodRouter) (method : String) : Progress :=
  match routes.lookup method with
  | some h => .entered h
  | none => .refused 405

def Router.route (r : Router) (req : Request) : Progress :=
  match if r.admin then adminRoutes r.dynamic req.path else none with
  | some routes => .guarded routes
  | none =>
    if r.data then
      match dynamicRoutes r.dynamic req.path with
      | some routes => routes.enter req.method
      | none => .entered .fallback
    else
      .refused 404

structure Call where
  listener : ListenerConfig
  req : Request
  progress : Progress
  -- the reload that the call has started, by its place among the tasks
  reload : Option Nat := none

structure Plane (γ ω : Type) where
  mounts : List Mount
  control : Tasks γ ω
  calls : List Call := []
  shutdown : Bool := false

inductive Event (γ ω : Type) where
  -- a step of the control plane, or somebody else's reload, configuration, pair or request
  | control (e : Pool.Event ControlPlane.Arrival (ControlPlane.Input γ ω))
  | arrive (socket : Nat) (req : Request)
  | guard (i : Nat)
  | handle (i : Nat)

namespace Plane

variable {γ ω : Type} (codec : Codec)

def guard (token : Option String) (c : Call) : Option Call :=
  match c.progress with
  | .guarded routes =>
    match adminAuth token c.req.path c.req.headers with
    | none => some { c with progress := routes.enter c.req.method }
    | some response => some { c with progress := .refused response.status }
  | _ => none

/-- Only the handlers that act on the control plane are told apart. -/
def handle (p : Plane γ ω) (i : Nat) (c : Call) : Option (Plane γ ω) :=
  match c.progress with
  | .entered .reloadEndpoint =>
    if c.req.remote.ip.isLoopback then
      some {
        p with
        control := { p.control with threads := p.control.threads ++ [ControlPlane.Task.start .reload] }
        calls := p.calls.set i { c with progress := .answered .reloadEndpoint, reload := some p.control.threads.length }
      }
    else
      some { p with calls := p.calls.set i { c with progress := .answered .reloadEndpoint } }
  | .entered .shutdownEndpoint =>
    some { p with shutdown := true, calls := p.calls.set i { c with progress := .answered .shutdownEndpoint } }
  | .entered h => some { p with calls := p.calls.set i { c with progress := .answered h } }
  | _ => none

def step (p : Plane γ ω) (e : Event γ ω) : Option (Plane γ ω) :=
  match e with
  | .control e => (ControlPlane.step codec p.control e).map fun control => { p with control := control }
  | .arrive socket req =>
    p.mounts[socket]?.map fun m =>
      { p with calls := p.calls ++ [{ listener := m.listener, req := req, progress := m.router.route req }] }
  | .guard i =>
    p.calls[i]?.bind fun c =>
      (guard p.control.shared.adminToken.current c).map fun c => { p with calls := p.calls.set i c }
  | .handle i => p.calls[i]?.bind fun c => p.handle i c

def boot (cfg : GatewayConfig) (registry : PluginRegistry γ ω) : Plane γ ω where
  mounts := App.mounts cfg.dynamic.isSome (effectiveListeners cfg.server)
  control := ControlPlane.boot codec cfg registry

end Plane

end App

end OpenRusty
