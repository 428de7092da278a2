import OpenRusty.Lib.Pool
import OpenRusty.Proxy.Balancer
import OpenRusty.Proxy.Forward
import OpenRusty.Server.State
import OpenRusty.Wasm.Session.Basic

/-!
This module contains the proxy attempts of a request (`pipeline/mod.rs`, `pipeline_peer.rs`, `ws.rs`)
as tasks of a server that share its health registry, its runtimes and the world of the plugins. Every
call on the registry is one atomic step of a task, and so is the run of a phase; between two steps of
a request other requests, reloads and probes take theirs.
-/

namespace OpenRusty

def mayRetryTimeout (retryOnTimeout : Bool) (attempt attempts : Nat) : Bool :=
  retryOnTimeout && decide (attempt + 1 < attempts)

def untriedHealthy (peers : List Peer) (healthy : List Nat) (tried : List SocketAddr) : List Nat :=
  healthy.filter fun i => peers[i]?.any fun p => !tried.contains p.addr

def pinIsValid (up : Upstream) (idx : Nat) (healthy : Bool) (tried : List SocketAddr) : Bool :=
  up.peers[idx]?.any fun p => healthy && !tried.contains p.addr

def swrrPick (up : Upstream) (cur : List Int) (healthy : List Nat) : Option (Nat × List Int) :=
  if healthy.isEmpty then
    none
  else
    let cur := cur.take up.peers.length ++ List.replicate (up.peers.length - cur.length) 0
    let weights := healthy.map fun i => up.peers[i]?.elim 0 Peer.weight
    let subset := healthy.map fun i => cur.getD i 0
    match swrrNext weights subset with
    | (k, subset) =>
      let cur := (healthy.zip subset).foldl (fun cur x => cur.set x.1 x.2) cur
      healthy[k]?.map fun i => (i, cur)

/-- What an attempt comes to: a response with its status, a transport error or the route timeout. -/
inductive Outcome where
  | answered (status : Nat)
  | failed (err : ForwardError)
  | timedOut
  deriving DecidableEq, Repr

inductive RequestKind where
  | http
  | websocket
  deriving DecidableEq, Repr

inductive Stage where
  | pick
  | testPin (i : Nat)
  | listHealthy
  | choose (candidates : List Nat)
  | acquire (idx : Nat)
  | build (idx : Nat)
  | wait (idx : Nat)
  | record (idx : Nat) (outcome : Outcome)
  | release (idx : Nat) (outcome : Outcome)
  | accept (idx : Nat)
  | dropped
  | done (status : Nat)
  deriving DecidableEq, Repr

/-- The last one of the runtimes is the current one, the others may still have requests pinned to them. -/
structure AppState (ω : Type) where
  health : HealthRegistry
  runtimes : List RuntimeSnapshot
  world : World ω

structure Request (γ ω : Type) where
  kind : RequestKind
  method : String
  up : Upstream
  /-- The runtime and the name that the upstream was pinned from -/
  cell : Nat × String
  session : RequestSession γ ω
  attempt : Nat := 0
  stage : Stage
  /-- The addresses whose gauge the request went up on and down on so far, for the specification only -/
  acquired : List SocketAddr := []
  released : List SocketAddr := []
  -- the phases that were run so far, for the specification only
  ran : List Phase := []

/--
What the environment decides about a step: the clock, whether the outgoing handshake request can be
built, how an attempt ends, or that the future of the request is dropped.
-/
inductive Input where
  | tick (nowMs : Nat)
  | built (ok : Bool)
  | outcome (o : Outcome)
  | drop
  deriving DecidableEq, Repr

namespace AppState

variable {ω : Type}

def current (s : AppState ω) (upstream : String) : Option UpstreamRt :=
  s.runtimes.getLast?.bind fun rt => rt.upstreams.lookup upstream

def swrr (s : AppState ω) (cell : Nat × String) : List Int :=
  (s.runtimes[cell.1]?.bind fun rt => rt.upstreams.lookup cell.2).elim [] UpstreamRt.swrr

def setSwrr (s : AppState ω) (cell : Nat × String) (cur : List Int) : AppState ω :=
  { s with runtimes := s.runtimes.modify cell.1 fun rt =>
      match rt.upstreams.lookup cell.2 with
      | some u => { rt with upstreams := rt.upstreams.insert cell.2 { u with swrr := cur } }
      | none => rt }

end AppState

namespace Request

variable {γ ω : Type} (s : AppState ω) (r : Request γ ω)

def ctx : ReqCtx := r.session.state.ctx

def modifyCtx (f : ReqCtx → ReqCtx) : Request γ ω := { r with session := r.session.modifyCtx f }

def attempts : Nat := Word.wrappingAdd 32 r.up.retries 1

def finishLog (status : Nat) : AppState ω × Request γ ω :=
  match r.session.runPhase .log s.world with
  | (_, session, world) =>
    ({ s with world },
      { r with
        session := session.takePhaseStats.2
        stage := .done status
        ran := r.ran ++ [.log] })

def beginAttempt : Request γ ω :=
  match r.kind with
  | .http => r.modifyCtx fun ctx => { ctx with attempts := r.attempt + 1, peerIndex := none }
  | .websocket => r.modifyCtx fun ctx => { ctx with peerIndex := none }

def pick : AppState ω × Request γ ω :=
  let r := r.beginAttempt
  match r.session.runPhase .balancer s.world with
  | (decision, session, world) =>
    let s := { s with world }
    let r := { r with session, ran := r.ran ++ [Phase.balancer] }
    match decision with
    | .deny status => r.finishLog s status
    | _ =>
      match r.ctx.peerIndex with
      | some i => (s, { r with stage := .testPin i })
      | none => (s, { r with stage := .listHealthy })

def testPin (i nowMs : Nat) : Request γ ω :=
  if pinIsValid r.up i (s.health.isHealthy r.up.name i nowMs) r.ctx.tried then
    { r with stage := .acquire i }
  else
    { r.modifyCtx fun ctx => { ctx with peerIndex := none } with stage := .listHealthy }

def listHealthy (nowMs : Nat) : AppState ω × Request γ ω :=
  let healthy := s.health.healthyIndices r.up.name r.up.peers.length nowMs
  let candidates := untriedHealthy r.up.peers healthy r.ctx.tried
  if candidates.isEmpty then r.finishLog s 502 else (s, { r with stage := .choose candidates })

def chosen (i : Option Nat) : AppState ω × Request γ ω :=
  match i with
  | some i => (s, { r with stage := .acquire i })
  | none => r.finishLog s 502

def choose (candidates : List Nat) : AppState ω × Request γ ω :=
  match r.up.kind with
  | .swrr =>
    match swrrPick r.up (s.swrr r.cell) candidates with
    | some (i, cur) => r.chosen (s.setSwrr r.cell cur) (some i)
    | none => r.chosen s none
  | .ipHash => r.chosen s (ipHashPick r.ctx.clientAddr.ip.toString candidates)
  | .leastConn =>
    let flights := s.health.inFlights r.up.name r.up.addrs
    r.chosen s (leastConnPick flights (r.up.peers.map Peer.weight) candidates)

def forward (idx : Nat) : Request γ ω :=
  match r.kind with
  | .http => { r.modifyCtx fun ctx => { ctx with peerIndex := some idx } with stage := .wait idx }
  | .websocket =>
    let r := r.modifyCtx fun ctx => { ctx with attempts := ctx.attempts + 1, peerIndex := some idx }
    { r with stage := .build idx }

/-- An index without a peer would be a panic of the source. -/
def acquire (idx : Nat) : Option (AppState ω × Request γ ω) :=
  r.up.peers[idx]?.map fun peer =>
    ({ s with health := s.health.incInFlight r.up.name peer.addr },
      forward { r with acquired := r.acquired ++ [peer.addr] } idx)

/-- An answered handshake gives its slot back before anything is recorded. -/
def answer (idx : Nat) (outcome : Outcome) : Request γ ω :=
  match r.kind, outcome with
  | .websocket, .answered _ => { r with stage := .release idx outcome }
  | _, _ => { r with stage := .record idx outcome }

def record (idx : Nat) (outcome : Outcome) (nowMs : Nat) : AppState ω × Request γ ω :=
  let health :=
    match outcome with
    | .answered _ => s.health.recordSuccess r.up.name idx nowMs
    | _ => s.health.recordFailure r.up.name idx r.up.health nowMs
  ({ s with health }, { r with stage := .release idx outcome })

def releasePeer (idx : Nat) : AppState ω × Request γ ω :=
  match r.up.peers[idx]? with
  | some peer =>
    ({ s with health := s.health.decInFlight r.up.name peer.addr },
      { r with released := r.released ++ [peer.addr] })
  | none => (s, r)

def markTried (idx : Nat) : Request γ ω :=
  match r.up.peers[idx]? with
  | some peer => r.modifyCtx fun ctx => ctx.markTried peer.addr
  | none => r

def mayRetryAfter (outcome : Outcome) : Bool :=
  match outcome with
  | .answered _ => false
  | .failed err => mayRetry r.method (failureKind err)
  | .timedOut =>
    mayRetry r.method .timeout && mayRetryTimeout r.up.retryOnTimeout r.attempt r.attempts

def nextAttempt : AppState ω × Request γ ω :=
  if r.attempt + 1 < r.attempts then
    (s, { r with attempt := r.attempt + 1, stage := .pick })
  else
    r.finishLog s 502

def afterRelease (idx : Nat) (outcome : Outcome) : AppState ω × Request γ ω :=
  match r.kind, outcome with
  | .http, .answered status => (s, { r with stage := .done status })
  | .http, outcome =>
    if r.mayRetryAfter outcome then (r.markTried idx).nextAttempt s else r.finishLog s 502
  | .websocket, .answered status =>
    if status = 101 then (s, { r with stage := .accept idx }) else r.finishLog s 502
  | .websocket, _ => (s, { r.markTried idx with stage := .pick })

def release (idx : Nat) (outcome : Outcome) : AppState ω × Request γ ω :=
  match r.releasePeer s idx with
  | (s, r) => r.afterRelease s idx outcome

def accept (idx nowMs : Nat) : AppState ω × Request γ ω :=
  ({ s with health := s.health.recordSuccess r.up.name idx nowMs }, { r with stage := .done 101 })

def act (x : Input) : Option (AppState ω × Request γ ω) :=
  match r.stage, x with
  | .pick, .tick _ => some (r.pick s)
  | .testPin i, .tick nowMs => some (s, r.testPin s i nowMs)
  | .listHealthy, .tick nowMs => some (r.listHealthy s nowMs)
  | .choose candidates, .tick _ => some (r.choose s candidates)
  | .acquire idx, .tick _ => r.acquire s idx
  | .build idx, .built true => some (s, { r with stage := .wait idx })
  | .build _, .built false => some (r.finishLog s 502)
  | .wait idx, .outcome o => some (s, r.answer idx o)
  | .wait _, .drop => some (s, { r with stage := .dropped })
  | .record idx o, .tick nowMs => some (r.record s idx o nowMs)
  | .release idx o, .tick _ => some (r.release s idx o)
  | .accept idx, .tick nowMs => some (r.accept s idx nowMs)
  | _, _ => none

def inProgress : Bool :=
  match r.stage with
  | .dropped => false
  | .done _ => false
  | _ => true

end Request

/--
The tasks of the server. A reload registers the upstreams of its configuration one by one before it
publishes the runtime; a probe hands its verdict over with the index and the address it dialed.
-/
inductive Task (γ ω : Type) where
  | arriving (kind : RequestKind) (method upstream : String) (session : RequestSession γ ω)
  | request (r : Request γ ω)
  | reload (cfg : Config) (generation : Nat) (rest : List UpstreamConfig)
  | probe (upstream : String) (idx : Nat) (addr : SocketAddr) (ok : Bool)
      (unhealthyThreshold healthyThreshold : Nat)
  | stopped

namespace Task

variable {γ ω : Type}

def load (s : AppState ω) (kind : RequestKind) (method upstream : String)
    (session : RequestSession γ ω)
    : AppState ω × Task γ ω :=
  match s.current upstream with
  | some u =>
    let r : Request γ ω := {
      kind := kind
      method := method
      up := u.up
      cell := (s.runtimes.length - 1, upstream)
      session := session
      stage := .pick
    }
    if kind = .http ∧ r.attempts = 0 then
      match r.finishLog s 502 with
      | (s, r) => (s, .request r)
    else
      (s, .request r)
  | none => (s, .stopped)

def act (s : AppState ω) (t : Task γ ω) (x : Input) : Option (AppState ω × Task γ ω) :=
  match t, x with
  | .arriving kind method upstream session, .tick _ => some (load s kind method upstream session)
  | .arriving .., .drop => some (s, .stopped)
  | .request r, x => (r.act s x).map fun y => (y.1, .request y.2)
  | .reload cfg generation (uc :: rest), .tick _ =>
    some ({ s with health := registerUpstream s.health uc }, .reload cfg generation rest)
  | .reload cfg generation [], .tick _ =>
    some ({ s with runtimes := s.runtimes ++ [.fromConfig cfg generation] }, .stopped)
  | .probe upstream idx addr ok unhealthyThreshold healthyThreshold, .tick _ =>
    let r := s.health.recordProbe upstream idx addr ok unhealthyThreshold healthyThreshold
    some ({ s with health := r.2 }, .stopped)
  | _, _ => none

end Task

inductive Arrival (γ ω : Type) where
  | request (kind : RequestKind) (method upstream : String) (session : RequestSession γ ω)
  | reload (cfg : Config) (generation : Nat)
  | probe (upstream : String) (idx : Nat) (addr : SocketAddr) (ok : Bool)
      (unhealthyThreshold healthyThreshold : Nat)

def Arrival.task {γ ω : Type} (a : Arrival γ ω) : Task γ ω :=
  match a with
  | .request kind method upstream session => .arriving kind method upstream session
  | .reload cfg generation => .reload cfg generation cfg.upstreams
  | .probe upstream idx addr ok unhealthyThreshold healthyThreshold =>
    .probe upstream idx addr ok unhealthyThreshold healthyThreshold

abbrev Server (γ ω : Type) := Pool (AppState ω) (Task γ ω)

namespace Server

variable {γ ω : Type}

def init (world : World ω) : Server γ ω where
  shared := { health := .new, runtimes := [], world := world }
  threads := []

def step (p : Server γ ω) (e : Pool.Event (Arrival γ ω) Input) : Option (Server γ ω) :=
  Pool.step Arrival.task Task.act p e

end Server

end OpenRusty
