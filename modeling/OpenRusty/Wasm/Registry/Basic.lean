import OpenRusty.Core.Config
import OpenRusty.Lib.ArcSwap
import OpenRusty.Lib.Fallible
import OpenRusty.Lib.Pool
import OpenRusty.Wasm.HostState.Refinement
import OpenRusty.Wasm.Session.Basic

/-!
This module contains the plugin registry (`registry.rs`, `registry_validate.rs`): the build of a
snapshot from the plugin directory, the carry-over of the shared states by name, and the reload calls
of any number of threads, split into their atomic steps. What the file system and the compiler answer
during a build is given by the environment of that build.
-/

namespace OpenRusty

structure RegisteredPlugin (γ ω : Type) extends LoadedPlugin γ ω where
  /-- The place of the shared host state -/
  state : Nat
  hasDealloc : Bool

structure PluginSnapshot (γ ω : Type) where
  generation : Nat
  plugins : List (RegisteredPlugin γ ω)

namespace PluginRegistry

inductive ReloadError where
  | io (detail : String)
  | compile (plugin detail : String)
  | abi (plugin detail : String)
  | conflict
  deriving DecidableEq, Repr

def ReloadError.toString (e : ReloadError) : String :=
  match e with
  | .io detail => "io error: " ++ detail
  | .compile plugin detail => "compile failed for plugin " ++ plugin ++ ": " ++ detail
  | .abi plugin detail => "abi validation failed for plugin " ++ plugin ++ ": " ++ detail
  | .conflict => "reload conflict: concurrent reload kept publishing first"

/--
An entry of the plugin directory: parts of its name that are not UTF-8 are `none`, and so is `isFile` if
the entry cannot be examined.
-/
structure DirEntry where
  stem : Option String
  extension : Option String
  isFile : Option Bool
  deriving DecidableEq, Repr

structure BuildEnv (γ ω : Type) where
  entries : Except String (List (Option DirEntry))
  read (name : String) : Except String Bytes
  compile (bytes : Bytes) : Except String (WasmModule γ ω)
  validateModule (module : WasmModule γ ω) : Except String Bool
  instantiatePre (module : WasmModule γ ω) : Except String Unit

variable {γ ω : Type}

def pluginName (entry : Option DirEntry) : Option String :=
  entry.bind fun e => if e.extension = some "wasm" ∧ e.isFile = some true then e.stem else none

def discover (env : BuildEnv γ ω) : Except ReloadError (List String) :=
  match env.entries with
  | .error e => .error (.io e)
  | .ok entries => .ok ((entries.filterMap pluginName).insertionSort fun a b => a ≤ b)

def orderPlugins (files order : List String) : List String :=
  files.foldl (fun out f => if out.contains f then out else out ++ [f])
    (order.filter fun n => files.contains n)

def stateOf (plugins : List (RegisteredPlugin γ ω)) (name : String) : Option Nat :=
  (plugins.reverse.find? fun p => p.name == name).map RegisteredPlugin.state

def loadPlugin (env : BuildEnv γ ω) (cfg : PluginsConfig) (name : String) (state : Nat)
    : Except ReloadError (RegisteredPlugin γ ω) := do
  let bytes ← (env.read name).mapError .io
  let module ← (env.compile bytes).mapError (.compile name)
  let hasDealloc ← (env.validateModule module).mapError (.abi name)
  let _ ← (env.instantiatePre module).mapError fun e => .abi name ("instantiate_pre: " ++ e)
  return {
    name := name
    module := module
    settings := (cfg.settings.lookup name).getD []
    timeout := cfg.timeoutMs
    failPolicy := cfg.onFailure
    memoryMb := cfg.maxMemoryMb
    state := state
    hasDealloc := hasDealloc
  }

def loadPlugins (env : BuildEnv γ ω) (cfg : PluginsConfig) (prev : List (RegisteredPlugin γ ω))
    (free : Nat) (names : List String)
    : Except ReloadError (List (RegisteredPlugin γ ω) × Nat) :=
  match names with
  | [] => .ok ([], free)
  | name :: names => do
    let carried := stateOf prev name
    let plugin ← loadPlugin env cfg name (carried.getD free)
    let rest ← loadPlugins env cfg prev (if carried.isSome then free else free + 1) names
    return (plugin :: rest.1, rest.2)

def build (env : BuildEnv γ ω) (cfg : PluginsConfig) (buildFrom : PluginSnapshot γ ω) (free : Nat)
    : Except ReloadError (PluginSnapshot γ ω × Nat) := do
  let names ← discover env
  let plugins ← loadPlugins env cfg buildFrom.plugins free (orderPlugins names cfg.order)
  return ({ generation := buildFrom.generation + 1, plugins := plugins.1 }, plugins.2)

def reloadAttempts : Nat := 3

end PluginRegistry

structure PluginRegistry (γ ω : Type) where
  swap : ArcSwap (PluginSnapshot γ ω)
  /-- The host states that plugins hold pointers to -/
  states : List HostState

namespace PluginRegistry

variable {γ ω : Type}

/-- What wasmtime answers when a registry is created; a reload keeps the engine and the linker that there are. -/
structure EngineEnv where
  newEngine : PluginsConfig → Except String Unit
  buildLinker : Except String Unit

/-- A directory that cannot be read or holds no plugin gives the empty snapshot. -/
def initial (env : BuildEnv γ ω) (cfg : PluginsConfig) : Except ReloadError (PluginRegistry γ ω) :=
  match discover env with
  | .ok (name :: names) => do
    let plugins ← loadPlugins env cfg [] 0 (orderPlugins (name :: names) cfg.order)
    return {
      swap := .new { generation := 1, plugins := plugins.1 }
      states := List.replicate plugins.2 HostState.new
    }
  | _ => .ok { swap := .new { generation := 0, plugins := [] }, states := [] }

def bootstrap (engine : EngineEnv) (env : BuildEnv γ ω) (cfg : PluginsConfig)
    : Except ReloadError (PluginRegistry γ ω) := do
  (engine.newEngine cfg).mapError (.abi "engine")
  engine.buildLinker.mapError (.abi "linker")
  initial env cfg

theorem bootstrap_eq_ok {engine : EngineEnv} {env : BuildEnv γ ω} {cfg : PluginsConfig} {reg : PluginRegistry γ ω}
    : bootstrap engine env cfg = .ok reg
        ↔ (engine.newEngine cfg = .ok () ∧ engine.buildLinker = .ok ()) ∧ initial env cfg = .ok reg := by
  simp [bootstrap, Except.unit_bind_eq_ok, Except.mapError_eq_ok, and_assoc]

/-- A call of `reload`, by the step that it takes next; `attempts` are those left after this one. -/
inductive ReloadCall (γ ω : Type) where
  | load (cfg : PluginsConfig) (attempts : Nat)
  | build (cfg : PluginsConfig) (attempts version : Nat) (current : PluginSnapshot γ ω)
  | publish (cfg : PluginsConfig) (attempts version : Nat) (snap : PluginSnapshot γ ω)
  | returned (result : Except ReloadError Nat)
  | dropped

/--
What the environment decides: the answers during a build, a build task that panics, and that the future
of the call is dropped while it waits for the build.
-/
inductive ReloadInput (γ ω : Type) where
  | run
  | built (env : BuildEnv γ ω)
  | joinError (detail : String)
  | drop

namespace ReloadCall

def start (cfg : PluginsConfig) : ReloadCall γ ω := .load cfg (reloadAttempts - 1)

def act (reg : PluginRegistry γ ω) (c : ReloadCall γ ω) (x : ReloadInput γ ω)
    : Option (PluginRegistry γ ω × ReloadCall γ ω) :=
  match c, x with
  | .load cfg attempts, .run => some (reg, .build cfg attempts reg.swap.version reg.swap.current)
  | .build cfg attempts version current, .built env =>
    match PluginRegistry.build env cfg current reg.states.length with
    | .ok (snap, free) =>
      let states := reg.states ++ List.replicate (free - reg.states.length) HostState.new
      some ({ reg with states }, .publish cfg attempts version snap)
    | .error e => some (reg, .returned (.error e))
  | .build .., .joinError detail => some (reg, .returned (.error (.io detail)))
  | .build .., .drop => some (reg, .dropped)
  | .publish cfg attempts version snap, .run =>
    match reg.swap.compareAndSwap version snap with
    | (true, swap) => some ({ reg with swap }, .returned (.ok snap.generation))
    | (false, _) =>
      match attempts with
      | 0 => some (reg, .returned (.error .conflict))
      | attempts + 1 => some (reg, .load cfg attempts)
  | _, _ => none

end ReloadCall

inductive User (γ ω : Type) where
  | reload (call : ReloadCall γ ω)
  | kv (state : Nat) (op : KvOp) (nowMs : Nat)
  | done

inductive Arrival where
  | reload (cfg : PluginsConfig)
  | kv (state : Nat) (op : KvOp) (nowMs : Nat)

namespace User

def start (a : Arrival) : User γ ω :=
  match a with
  | .reload cfg => .reload (.start cfg)
  | .kv state op nowMs => .kv state op nowMs

def act (reg : PluginRegistry γ ω) (u : User γ ω) (x : ReloadInput γ ω)
    : Option (PluginRegistry γ ω × User γ ω) :=
  match u, x with
  | .reload call, x => (call.act reg x).map fun y => (y.1, .reload y.2)
  | .kv state op nowMs, .run =>
    some ({ reg with states := reg.states.modify state fun s => (s.exec op nowMs).2 }, .done)
  | _, _ => none

end User

abbrev Users (γ ω : Type) := Pool (PluginRegistry γ ω) (User γ ω)

def step (p : Users γ ω) (e : Pool.Event Arrival (ReloadInput γ ω)) : Option (Users γ ω) :=
  Pool.step User.start User.act p e

end PluginRegistry

end OpenRusty
