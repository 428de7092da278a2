import OpenRusty.Server.DynamicRoutes
import OpenRusty.Server.Ingress
import OpenRusty.Wasm.Registry.Basic

/-!
This module contains the control plane of the gateway: reloads (`reload.rs`), the functions of
`state.rs` that they publish with, the applications of Ingress pairs (`ingress/mod.rs`) and the pinning
at the start of a request (`pipeline/mod.rs`), as tasks that share the state of the process. Every
access to a swapped cell, to the gate or to the health registry is one atomic step of a task; a future
can only be dropped where it awaits.
-/

namespace OpenRusty

inductive Origin where
  | boot
  | reload (cfg : GatewayConfig)
  | apply (pair : IngressPair)

structure Publication where
  runtime : RuntimeSnapshot
  /-- For the specification only -/
  origin : Origin

structure ControlPlane (γ ω : Type) where
  staticConfig : GatewayConfig
  registry : PluginRegistry γ ω
  health : HealthRegistry
  runtime : ArcSwap Publication
  -- the section that the dynamic registry was built from
  dynamic : ArcSwap (Option DynamicConfig)
  dynamicRoutes : ArcSwap DynamicRoutes
  adminToken : ArcSwap (Option String)
  reloadGate : Bool
  -- the one consumer of the pairs is busy
  applying : Bool

structure Codec where
  decode : String → Except String Bytes
  debug : String → String

namespace ControlPlane

variable {γ ω : Type} (codec : Codec)

def generation (s : ControlPlane γ ω) : Nat := s.registry.swap.current.generation

def fromConfig (cfg : GatewayConfig) (registry : PluginRegistry γ ω) : ControlPlane γ ω where
  staticConfig := cfg
  registry := registry
  health := cfg.upstreams.foldl registerUpstream .new
  runtime := .new {
    runtime := .fromConfig cfg.toConfig registry.swap.current.generation
    origin := .boot
  }
  dynamic := .new cfg.dynamic
  dynamicRoutes := .new (DynamicRoutes.reconcile codec.debug {} (cfg.dynamic.elim [] DynamicConfig.routes))
  adminToken := .new cfg.admin.effectiveToken
  reloadGate := false
  applying := false

def release (s : ControlPlane γ ω) : ControlPlane γ ω := { s with reloadGate := false }

def storeRuntime (s : ControlPlane γ ω) (cfg : Config) (generation : Nat) (origin : Origin)
    : ControlPlane γ ω :=
  { s with runtime := s.runtime.store { runtime := .fromConfig cfg generation, origin := origin } }

def applyDynamic (s : ControlPlane γ ω) (cfg : GatewayConfig) : ControlPlane γ ω :=
  if s.dynamic.current = cfg.dynamic then s else { s with dynamic := s.dynamic.store cfg.dynamic }

def reconciled (s : ControlPlane γ ω) (cfg : GatewayConfig) : DynamicRoutes :=
  match cfg.dynamic with
  | none => {}
  | some d => s.dynamicRoutes.current.reconcile codec.debug d.routes

inductive Input (γ ω : Type) where
  | run
  | loaded (env : LoadEnv)
  | joinError (detail : String)
  | lookup (lookupHost : String → Option (List SocketAddr))
  | tls (build : UpstreamTlsConfig → Except String Unit)
  | plugins (x : PluginRegistry.ReloadInput γ ω)
  | drop

inductive ReloadError where
  | inFlight
  | failed (message : String)
  deriving DecidableEq, Repr

/-- A call with a configuration in memory returns the generation only. -/
structure ReloadReport where
  generation : Nat
  plugins : Option (List String)
  deriving DecidableEq, Repr

structure Job where
  file : Bool
  loaded : GatewayConfig
  resolved : GatewayConfig
  generation : Nat

inductive PublishStep where
  | register (rest : List UpstreamConfig)
  | dynamic
  | loadRoutes
  | storeRoutes (next : DynamicRoutes)
  | token
  | report

inductive Reload (γ ω : Type) where
  /-- For the configuration file it is `none`. -/
  | start (cfg : Option GatewayConfig)
  | load
  | resolve (file : Bool) (cfg : GatewayConfig)
  | tls (file : Bool) (loaded resolved : GatewayConfig)
  | plugins (file : Bool) (loaded resolved : GatewayConfig) (call : PluginRegistry.ReloadCall γ ω)
  | publish (job : Job) (next : PublishStep)
  | done (result : Except ReloadError ReloadReport)
  | dropped

namespace Reload

def fail (s : ControlPlane γ ω) (message : String) : ControlPlane γ ω × Reload γ ω :=
  (s.release, .done (.error (.failed message)))

def actPublish (s : ControlPlane γ ω) (job : Job) (next : PublishStep)
    : ControlPlane γ ω × Reload γ ω :=
  match next with
  | .register (uc :: rest) =>
    ({ s with health := registerUpstream s.health uc }, .publish job (.register rest))
  | .register [] =>
    (s.storeRuntime job.resolved.toConfig job.generation (.reload job.loaded), .publish job .dynamic)
  | .dynamic => (s.applyDynamic job.resolved, .publish job .loadRoutes)
  | .loadRoutes => (s, .publish job (.storeRoutes (s.reconciled codec job.resolved)))
  | .storeRoutes routes =>
    ({ s with dynamicRoutes := s.dynamicRoutes.store routes },
      .publish job (if job.file then .token else .report))
  | .token =>
    ({ s with adminToken := s.adminToken.store job.loaded.admin.effectiveToken },
      .publish job .report)
  | .report =>
    let names := s.registry.swap.current.plugins.map fun p => p.name
    let report := { generation := job.generation, plugins := if job.file then some names else none }
    (s.release, .done (.ok report))

/-- The gate is held until the call of the registry has returned and everything is published. -/
def actPlugins (s : ControlPlane γ ω) (file : Bool) (loaded resolved : GatewayConfig)
    (registry : PluginRegistry γ ω) (call : PluginRegistry.ReloadCall γ ω)
    : ControlPlane γ ω × Reload γ ω :=
  let s := { s with registry := registry }
  match call with
  | .returned (.ok generation) =>
    let job := { file := file, loaded := loaded, resolved := resolved, generation := generation }
    (s, .publish job (.register resolved.upstreams))
  | .returned (.error e) => fail s ("plugins: " ++ e.toString)
  | .dropped => (s.release, .dropped)
  | call => (s, .plugins file loaded resolved call)

def act (s : ControlPlane γ ω) (r : Reload γ ω) (x : Input γ ω)
    : Option (ControlPlane γ ω × Reload γ ω) :=
  match r, x with
  | .start cfg, .run =>
    if s.reloadGate then
      some (s, .done (.error .inFlight))
    else
      some ({ s with reloadGate := true }, cfg.elim .load (.resolve false))
  | .load, .loaded env =>
    match loadConfig env with
    | .ok cfg => some (s, .resolve true cfg)
    | .error e => some (fail s ("config: " ++ e.toString))
  | .load, .joinError detail => some (fail s ("reload task failed: " ++ detail))
  | .load, .drop => some (s.release, .dropped)
  | .resolve file cfg, .lookup lookupHost => some (s, .tls file cfg (cfg.resolve lookupHost))
  | .resolve .., .drop => some (s.release, .dropped)
  | .tls file loaded resolved, .tls build =>
    match buildTlsPlans build resolved.toConfig with
    | .ok _ => some (s, .plugins file loaded resolved (.start resolved.plugins))
    | .error detail => some (fail s ("tls: " ++ detail))
  | .plugins file loaded resolved call, .plugins y =>
    (call.act s.registry y).map fun z => actPlugins s file loaded resolved z.1 z.2
  | .publish job next, .run => some (actPublish codec s job next)
  | _, _ => none

end Reload

inductive Apply where
  | start (pair : IngressPair)
  | resolve (pair : IngressPair) (cfg : GatewayConfig)
  | tls (pair : IngressPair) (cfg : GatewayConfig)
  | readGeneration (pair : IngressPair) (cfg : GatewayConfig)
  | register (pair : IngressPair) (cfg : GatewayConfig) (generation : Nat) (rest : List UpstreamConfig)
  | done (published : Option IngressPair)

namespace Apply

def finish (s : ControlPlane γ ω) (published : Option IngressPair) : ControlPlane γ ω × Apply :=
  ({ s with applying := false }, .done published)

def act (s : ControlPlane γ ω) (a : Apply) (x : Input γ ω) : Option (ControlPlane γ ω × Apply) :=
  match a, x with
  | .start pair, .run =>
    if s.applying then
      none
    else
      match s.staticConfig.composePair codec.decode pair with
      | none => some (s, .done none)
      | some cfg => some ({ s with applying := true }, .resolve pair cfg)
  | .resolve pair cfg, .lookup lookupHost => some (s, .tls pair (cfg.resolve lookupHost))
  | .tls pair cfg, .tls build =>
    match buildTlsPlans build cfg.toConfig with
    | .ok _ => some (s, .readGeneration pair cfg)
    | .error _ => some (finish s none)
  | .readGeneration pair cfg, .run => some (s, .register pair cfg s.generation cfg.upstreams)
  | .register pair cfg generation (uc :: rest), .run =>
    some ({ s with health := registerUpstream s.health uc }, .register pair cfg generation rest)
  | .register pair cfg generation [], .run =>
    some (finish (s.storeRuntime cfg.toConfig generation (.apply pair)) (some pair))
  | _, _ => none

end Apply

/-- A request pins the plugins first and the runtime afterwards. -/
inductive Pinning (γ ω : Type) where
  | start
  | plugins (snap : PluginSnapshot γ ω)
  | pinned (snap : PluginSnapshot γ ω) (rt : RuntimeSnapshot)

def Pinning.act (s : ControlPlane γ ω) (q : Pinning γ ω) (x : Input γ ω)
    : Option (ControlPlane γ ω × Pinning γ ω) :=
  match q, x with
  | .start, .run => some (s, .plugins s.registry.swap.current)
  | .plugins snap, .run => some (s, .pinned snap s.runtime.current.runtime)
  | _, _ => none

inductive Task (γ ω : Type) where
  | reload (r : Reload γ ω)
  | apply (a : Apply)
  | request (q : Pinning γ ω)

inductive Arrival where
  | reload
  | applyConfig (cfg : GatewayConfig)
  | handOver (pair : IngressPair)
  | request

namespace Task

def start (a : Arrival) : Task γ ω :=
  match a with
  | .reload => .reload (.start none)
  | .applyConfig cfg => .reload (.start (some cfg))
  | .handOver pair => .apply (.start pair)
  | .request => .request .start

def act (s : ControlPlane γ ω) (t : Task γ ω) (x : Input γ ω)
    : Option (ControlPlane γ ω × Task γ ω) :=
  match t with
  | .reload r => (r.act codec s x).map fun y => (y.1, .reload y.2)
  | .apply a => (a.act codec s x).map fun y => (y.1, .apply y.2)
  | .request q => (q.act s x).map fun y => (y.1, .request y.2)

end Task

abbrev Tasks (γ ω : Type) := Pool (ControlPlane γ ω) (Task γ ω)

def step (p : Tasks γ ω) (e : Pool.Event Arrival (Input γ ω)) : Option (Tasks γ ω) :=
  Pool.step Task.start (Task.act codec) p e

def boot (cfg : GatewayConfig) (registry : PluginRegistry γ ω) : Tasks γ ω :=
  { shared := .fromConfig codec cfg registry, threads := [] }

end ControlPlane

end OpenRusty
