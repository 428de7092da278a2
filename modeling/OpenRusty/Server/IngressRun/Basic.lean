import OpenRusty.K8s.WatchLemmas
import OpenRusty.Lib.WatchCell
import OpenRusty.Server.Reload.Basic
import OpenRusty.Server.Slots

/-!
This module contains the whole way of an Ingress through the gateway (`ingress/mod.rs`): the watch loops of
both kinds of objects with their callbacks, the pair that they publish, the one consumer of the pair, and the
control plane that it applies the pair to, where reloads and requests go on.
-/

namespace OpenRusty

namespace IngressRun

structure Watcher (T : Type) [ResourceMeta T] where
  state : WatchState T
  keyed : state.Keyed
  -- the callback was called and has not folded its snapshot yet
  calling : Bool := false

namespace Watcher

variable {T : Type} [ResourceMeta T]

def init : Watcher T where
  state := .init
  keyed := ⟨Snapshot.keyed_new, by rintro handed (h | h)⟩

def step (parseLine : String → Option (WatchEvent T)) (w : Watcher T) (x : WatchInput T) : Option (Watcher T) :=
  match h : w.state.step true parseLine x with
  | none => none
  | some state =>
    some {
      state := state
      keyed := w.keyed.step h
      calling := decide (state.stats.generation ≠ w.state.stats.generation)
    }

def incoming (w : Watcher T) : Option (KeyedSnapshot T) :=
  match h : w.state.handed with
  | none => none
  | some handed => some { toSnapshot := handed, keyed := w.keyed.2 handed h }

end Watcher

structure Watched (T : Type) [ResourceMeta T] where
  watchers : List (Watcher T)
  handOvers : HandOvers.Loops T

inductive WatchedStep (T : Type) where
  | input (i : Nat) (x : WatchInput T)
  | fold (i : Nat)
  | publish (i : Nat)
  deriving DecidableEq

namespace Watched

variable {T : Type} [ResourceMeta T]

def init (paths : List String) : Watched T where
  watchers := paths.map fun _ => .init
  handOvers := HandOvers.init paths

def publishing (k : Watched T) (i : Nat) : Bool := k.handOvers.threads[i]?.any fun t => t.merged.isSome

def step (parseLine : String → Option (WatchEvent T)) (k : Watched T) (e : WatchedStep T) : Option (Watched T) :=
  match e with
  | .input i x =>
    k.watchers[i]?.bind fun w =>
      if w.calling || k.publishing i then
        none
      else
        (w.step parseLine x).map fun w' => { k with watchers := k.watchers.set i w' }
  | .fold i =>
    k.watchers[i]?.bind fun w =>
      if w.calling then
        w.incoming.bind fun incoming =>
          (HandOvers.step k.handOvers (.step i (.fold incoming))).map fun handOvers =>
            { watchers := k.watchers.set i { w with calling := false }, handOvers := handOvers }
      else
        none
  | .publish i =>
    (HandOvers.step k.handOvers (.step i .publish)).map fun handOvers => { k with handOvers := handOvers }

end Watched

inductive Applier where
  | waiting (seen : Nat)
  | debouncing (seen : Nat)
  | applying (seen task : Nat)
  deriving DecidableEq, Repr

structure Plane (γ ω : Type) where
  ingresses : Watched Ingress
  secrets : Watched Secret
  pair : WatchCell IngressPair
  applier : Applier
  control : ControlPlane.Tasks γ ω
  -- the task of the last application and its pair, for the specification only
  taken : Option (Nat × IngressPair) := none

inductive Event (γ ω : Type) where
  | ingress (e : WatchedStep Ingress)
  | secret (e : WatchedStep Secret)
  | changed
  | take
  | finish
  | control (e : Pool.Event ControlPlane.Arrival (ControlPlane.Input γ ω))

structure Parsers where
  ingress : String → Option (WatchEvent Ingress)
  secret : String → Option (WatchEvent Secret)

namespace Plane

variable {γ ω : Type} (codec : Codec) (parsers : Parsers)

def boot (cfg : GatewayConfig) (registry : PluginRegistry γ ω) : Plane γ ω where
  ingresses := .init (ingressPaths cfg.ingress.namespaces)
  secrets := .init (secretPaths cfg.ingress.namespaces)
  pair := { value := (.new, .new) }
  applier := .waiting 0
  control := ControlPlane.boot codec cfg registry

def sendIngresses (p : Plane γ ω) (k : Watched Ingress) : WatchCell IngressPair :=
  p.pair.send (k.handOvers.shared.published, p.pair.value.2)

def sendSecrets (p : Plane γ ω) (k : Watched Secret) : WatchCell IngressPair :=
  p.pair.send (p.pair.value.1, k.handOvers.shared.published)

def stepIngress (p : Plane γ ω) (e : WatchedStep Ingress) : Option (Plane γ ω) :=
  (p.ingresses.step parsers.ingress e).map fun k =>
    match e with
    | .publish _ => { p with ingresses := k, pair := p.sendIngresses k }
    | _ => { p with ingresses := k }

def stepSecret (p : Plane γ ω) (e : WatchedStep Secret) : Option (Plane γ ω) :=
  (p.secrets.step parsers.secret e).map fun k =>
    match e with
    | .publish _ => { p with secrets := k, pair := p.sendSecrets k }
    | _ => { p with secrets := k }

def stepControl (p : Plane γ ω) (e : Pool.Event ControlPlane.Arrival (ControlPlane.Input γ ω))
    : Option (Plane γ ω) :=
  match e with
  | .spawn (.handOver _) => none
  | e => (ControlPlane.step codec p.control e).map fun control => { p with control := control }

def stepApplier (p : Plane γ ω) (e : Event γ ω) : Option (Plane γ ω) :=
  match p.applier, e with
  | .waiting seen, .changed =>
    (p.pair.changed seen).bind fun x => if x.1 then some { p with applier := .debouncing x.2 } else none
  | .debouncing _, .take =>
    let task := p.control.threads.length
    (ControlPlane.step codec p.control (.spawn (.handOver p.pair.value))).map fun control =>
      { p with
        control := control
        applier := .applying p.pair.version task
        taken := some (task, p.pair.value) }
  | .applying seen task, .finish =>
    match p.control.threads[task]? with
    | some (.apply (.done _)) => some { p with applier := .waiting seen }
    | _ => none
  | _, _ => none

def step (p : Plane γ ω) (e : Event γ ω) : Option (Plane γ ω) :=
  match e with
  | .ingress e => p.stepIngress parsers e
  | .secret e => p.stepSecret parsers e
  | .control e => p.stepControl codec e
  | e => p.stepApplier codec e

end Plane

end IngressRun

end OpenRusty
