import OpenRusty.Server.BodyFilter
import OpenRusty.Server.Handshake
import OpenRusty.Server.Pipeline.Basic
import OpenRusty.Server.ShortCircuit

/-!
This module contains the whole life of a request (`pipeline/mod.rs`, `ws.rs`): the routing, the phases
before the proxy, the WebSocket branch, the body of the request, the proxy attempts, the header filter
and what outlives the handler, which is the streamed body or the tunnel of an upgraded connection. It is
a task of the server like in `Pipeline`, with one phase, one attempt step or one frame at a time.
-/

namespace OpenRusty

structure Pinned where
  up : Upstream
  cell : Nat × String

inductive LifeStage (γ ω : Type) where
  | arrived
  | phases (pin : Pinned) (x : Exchange γ ω) (rest : List Phase)
  | readBody (pin : Pinned) (x : Exchange γ ω)
  | content (pin : Pinned) (x : Exchange γ ω)
  | attempts (r : Request γ ω)
  | headerFilter (status : Nat) (x : Exchange γ ω)
  | streaming (status : Nat) (body : FilteredBody γ ω)
  | upgraded (x : Exchange γ ω)
  | tunnel (x : Exchange γ ω)
  | finished (status : Nat) (ran : List Phase)
  | cancelled

structure Life (γ ω : Type) where
  req : HttpRequest
  remote : SocketAddr
  plugins : List (LoadedPlugin γ ω)
  stage : LifeStage γ ω := .arrived
  /-- Whether the request was routed to an upstream that is known, for the specification only -/
  routed : Bool := false

inductive TunnelEnd where
  | clientUpgradeFailed
  | upstreamUpgradeFailed
  | closed
  deriving DecidableEq, Repr

/--
What the environment decides: the clock, the body that the client sends (`none` if it is too large or
cannot be read), the steps of the attempts, the headers of a response, whether a response can be built,
the frames of the peer, the end of a tunnel, and that the future or the body is dropped.
-/
inductive LifeInput where
  | tick (nowMs : Nat)
  | body (body : Option Bytes)
  | attempt (x : Input)
  | response (headers : List (String × Option String))
  | built (ok : Bool)
  | poll (polled : Polled)
  | tunnelEnd (e : TunnelEnd)
  | drop
  deriving DecidableEq, Repr

inductive HandOver where
  | response (status : Nat)
  | upgraded
  deriving DecidableEq, Repr

def Request.handOver {γ ω : Type} (r : Request γ ω) : Option HandOver :=
  match r.kind, r.stage with
  | .http, .release _ (.answered status) => some (.response status)
  | _, .accept _ => some .upgraded
  | _, _ => none

def seededHeaders (headers : List (String × Option String)) : List (String × String) :=
  (headers.filter fun h => !(startsWith h.1 ":" || isHopByHop h.1)).filterMap fun h =>
    h.2.map fun value => (h.1, value)

namespace Life

variable {γ ω : Type}

def finishLog (s : AppState ω) (x : Exchange γ ω) (status : Nat) : AppState ω × LifeStage γ ω :=
  match x.runLog s.world with
  | (x, world) => ({ s with world }, .finished status x.ran)

def settle (s : AppState ω) (d : Decision) (x : Exchange γ ω) (next : AppState ω × LifeStage γ ω)
    : AppState ω × LifeStage γ ω :=
  match d with
  | .deny status => finishLog s x status
  | .done => finishLog s x (logStatus x.session.state 204)
  | _ => next

def startAttempts (s : AppState ω) (kind : RequestKind) (method : String) (pin : Pinned)
    (x : Exchange γ ω)
    : AppState ω × LifeStage γ ω :=
  let r : Request γ ω := {
    kind := kind
    method := method
    up := pin.up
    cell := pin.cell
    session := x.session
    stage := .pick
    ran := x.ran
  }
  if kind = .http ∧ r.attempts = 0 then finishLog s x 502 else (s, .attempts r)

/-- A connection of HTTP/2 cannot be upgraded. -/
def branch (s : AppState ω) (req : HttpRequest) (pin : Pinned) (x : Exchange γ ω)
    : AppState ω × LifeStage γ ω :=
  if isWebsocketUpgrade req.method x.session.state.ctx.headers then
    if req.version = .http2 then
      finishLog s x 502
    else
      startAttempts s .websocket req.method pin x
  else
    (s, .readBody pin x)

def peerViews (s : AppState ω) (up : Upstream) (nowMs : Nat) : List PeerView :=
  up.peers.mapIdx fun i p =>
    { name := p.addr.toString
      addr := p.addr.toString
      healthy := s.health.isHealthy up.name i nowMs }

def newExchange (l : Life γ ω) (routing : Option Nat × Option String) (peers : List PeerView)
    : Exchange γ ω :=
  { session := RequestSession.new l.plugins (reqCtx l.req l.remote routing) peers }

def routes (s : AppState ω) : List RouteConfig := s.runtimes.getLast?.elim [] RuntimeSnapshot.routes

def route (s : AppState ω) (req : HttpRequest) : Option (Nat × RouteConfig) :=
  let headers := foldH2Authority req.textHeaders req.uri.authority
  (matchRoute (routes s) (requestHost headers) req.uri.path).bind fun i =>
    (routes s)[i]?.map fun route => (i, route)

/-- A request without a route is logged only if the configuration says so. -/
def unrouted (logOnNoRoute : Bool) (s : AppState ω) (l : Life γ ω)
    (routing : Option Nat × Option String) (status : Nat)
    : AppState ω × LifeStage γ ω :=
  if logOnNoRoute then
    finishLog s (l.newExchange routing []) status
  else
    (s, .finished status [])

def arrive (logOnNoRoute : Bool) (s : AppState ω) (l : Life γ ω) (nowMs : Nat)
    : AppState ω × Life γ ω :=
  match route s l.req with
  | none =>
    match unrouted logOnNoRoute s l (none, none) 404 with
    | (s, stage) => (s, { l with stage := stage, routed := false })
  | some (i, route) =>
    match s.current route.upstream with
    | none =>
      match unrouted logOnNoRoute s l (some i, some route.upstream) 502 with
      | (s, stage) => (s, { l with stage := stage, routed := false })
    | some u =>
      let pin : Pinned := { up := u.up, cell := (s.runtimes.length - 1, route.upstream) }
      let x := l.newExchange (some i, some u.up.name) (peerViews s u.up nowMs)
      (s, { l with stage := .phases pin x [.postRead, .rewrite, .access], routed := true })

def runPhases (s : AppState ω) (req : HttpRequest) (pin : Pinned) (x : Exchange γ ω) (rest : List Phase)
    : AppState ω × LifeStage γ ω :=
  match rest with
  | phase :: rest =>
    match x.runPhase phase s.world with
    | (d, x, world) => settle { s with world } d x ({ s with world }, .phases pin x rest)
  | [] => branch s req pin x

def gotBody (s : AppState ω) (pin : Pinned) (x : Exchange γ ω) (body : Option Bytes)
    : AppState ω × LifeStage γ ω :=
  match body with
  | some body => (s, .content pin { x with session := x.session.setReqBody body })
  | none => finishLog s x 413

def runContent (s : AppState ω) (req : HttpRequest) (pin : Pinned) (x : Exchange γ ω)
    : AppState ω × LifeStage γ ω :=
  match x.runPhase .content s.world with
  | (d, x, world) =>
    settle { s with world } d x (startAttempts { s with world } .http req.method pin x)

def afterAttempt (r r' : Request γ ω) : LifeStage γ ω :=
  let x : Exchange γ ω := { session := r'.session, ran := r'.ran }
  match r.handOver with
  | some (.response status) => .headerFilter status x
  | some .upgraded => .upgraded x
  | none =>
    match r'.stage with
    | .done status => .finished status r'.ran
    | .dropped => .cancelled
    | _ => .attempts r'

def filterHeaders (s : AppState ω) (status : Nat) (x : Exchange γ ω)
    (headers : List (String × Option String))
    : AppState ω × LifeStage γ ω :=
  let x := { x with session := x.session.setRespHeaders (seededHeaders headers) }
  match x.runPhase .headerFilter s.world with
  | (d, x, world) =>
    match d with
    | .deny status => finishLog { s with world } x status
    | _ => ({ s with world }, .streaming status { exchange := x })

def act (logOnNoRoute : Bool) (s : AppState ω) (l : Life γ ω) (x : LifeInput)
    : Option (AppState ω × Life γ ω) :=
  match l.stage, x with
  | .arrived, .tick nowMs => some (arrive logOnNoRoute s l nowMs)
  | .phases pin y rest, .tick _ => some (next l (runPhases s l.req pin y rest))
  | .readBody pin y, .body body => some (next l (gotBody s pin y body))
  | .readBody _ _, .drop => some (s, { l with stage := .cancelled })
  | .content pin y, .tick _ => some (next l (runContent s l.req pin y))
  | .attempts r, .attempt x =>
    (r.act s x).map fun y => (y.1, { l with stage := afterAttempt r y.2 })
  | .headerFilter status y, .response headers => some (next l (filterHeaders s status y headers))
  | .streaming status body, .poll polled =>
    match body.pollFrame polled s.world with
    | (body, world) => some ({ s with world }, { l with stage := .streaming status body })
  | .streaming status body, .drop =>
    match body.drop s.world with
    | (body, world) => some ({ s with world }, { l with stage := .finished status body.exchange.ran })
  | .upgraded y, .built true => some (s, { l with stage := .tunnel y })
  | .upgraded y, .built false => some (next l (finishLog s y 502))
  | .tunnel y, .tunnelEnd _ => some (next l (finishLog s y 101))
  | _, _ => none
where
  next (l : Life γ ω) (r : AppState ω × LifeStage γ ω) : AppState ω × Life γ ω :=
    (r.1, { l with stage := r.2 })

end Life

inductive GatewayTask (γ ω : Type) where
  | life (l : Life γ ω)
  | other (t : Task γ ω)

inductive GatewayArrival (γ ω : Type) where
  | request (req : HttpRequest) (remote : SocketAddr) (plugins : List (LoadedPlugin γ ω))
  | other (a : Arrival γ ω)

inductive GatewayInput where
  | life (x : LifeInput)
  | other (x : Input)
  deriving DecidableEq, Repr

namespace Gateway

variable {γ ω : Type}

def spawn (a : GatewayArrival γ ω) : GatewayTask γ ω :=
  match a with
  | .request req remote plugins => .life { req := req, remote := remote, plugins := plugins }
  | .other a => .other a.task

def act (logOnNoRoute : Bool) (s : AppState ω) (t : GatewayTask γ ω) (x : GatewayInput)
    : Option (AppState ω × GatewayTask γ ω) :=
  match t, x with
  | .life l, .life x => (l.act logOnNoRoute s x).map fun y => (y.1, .life y.2)
  | .other t, .other x => (t.act s x).map fun y => (y.1, .other y.2)
  | _, _ => none

def step (logOnNoRoute : Bool) (p : Pool (AppState ω) (GatewayTask γ ω))
    (e : Pool.Event (GatewayArrival γ ω) GatewayInput)
    : Option (Pool (AppState ω) (GatewayTask γ ω)) :=
  Pool.step spawn (act logOnNoRoute) p e

def init (world : World ω) : Pool (AppState ω) (GatewayTask γ ω) where
  shared := { health := .new, runtimes := [], world := world }
  threads := []

end Gateway

end OpenRusty
