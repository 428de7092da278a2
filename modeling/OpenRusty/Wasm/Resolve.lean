import Mathlib.Data.Finset.Basic
import Mathlib.Data.List.AList
import OpenRusty.Core.Validate
import OpenRusty.Lib.Pool
import OpenRusty.Wasm.Registry.Basic

/-!
This module contains how a dynamic module is found (`dynamic.rs`): the cache of the compiled modules with
the version of the file they are from, the gate of every name that lets one request compile at a time,
and the requests of any number of clients beside changes of the module directory. The directory is the
list of all its changes, so an instant is a number of changes.
-/

namespace OpenRusty

/-- The time of modification in seconds and nanoseconds and the size are the `version`. -/
structure ModuleFile where
  version : Nat × Nat × Nat
  bytes : Bytes
  deriving DecidableEq, Repr

abbrev ModuleDir := List (String × Option ModuleFile)

namespace ModuleDir

def file (dir : ModuleDir) (name : String) : Option ModuleFile := (dir.reverse.lookup name).join

def fileAt (dir : ModuleDir) (instant : Nat) (name : String) : Option ModuleFile :=
  file (dir.take instant) name

end ModuleDir

/-- The compiler, and the texts that come from the operating system and the runtime. -/
structure CompileEnv (γ ω : Type) where
  compile (bytes : Bytes) : Except String (WasmModule γ ω)
  validateModule (module : WasmModule γ ω) : Except String Bool
  instantiatePre (module : WasmModule γ ω) : Except String Unit
  path (name : String) : String
  readError : String

namespace CompileEnv

variable {γ ω : Type}

def readFailed (env : CompileEnv γ ω) (name : String) : String :=
  "read " ++ env.path name ++ ": " ++ env.readError

def compileBytes (env : CompileEnv γ ω) (bytes : Bytes) : Except String (WasmModule γ ω × Bool) := do
  let module ← (env.compile bytes).mapError fun e => "compile failed: " ++ e
  let hasDealloc ← (env.validateModule module).mapError fun e => "abi validation failed: " ++ e
  let _ ← (env.instantiatePre module).mapError fun e => "instantiate_pre failed: " ++ e
  return (module, hasDealloc)

end CompileEnv

structure CachedModule (γ ω : Type) where
  version : Nat × Nat × Nat
  plugin : RegisteredPlugin γ ω

structure DynamicRegistry (γ ω : Type) where
  dir : ModuleDir := []
  cache : AList fun _ : String => CachedModule γ ω := ∅
  -- the names whose gate is locked
  gates : Finset String := ∅
  -- a host state is known by its place
  states : List String := []
  compiled : Nat := 0

inductive ResolveFail where
  | invalidName
  | notFound
  | build (detail : String)
  deriving DecidableEq, Repr

def maxNameLen : Nat := 128

def validName (name : String) : Bool :=
  decide (len name ≤ maxNameLen) && DynamicConfig.validModuleName name

inductive ResolveState (γ ω : Type) where
  | start
  | evicting
  | checking (version : Nat × Nat × Nat)
  | waiting (version : Nat × Nat × Nat)
  | gated (version : Nat × Nat × Nat)
  | reading (version : Nat × Nat × Nat)
  | compiling (version : Nat × Nat × Nat) (bytes : Bytes)
  | built (version : Nat × Nat × Nat) (result : Except String (WasmModule γ ω × Bool))
  | leaving (result : Except ResolveFail (RegisteredPlugin γ ω))
  | returned (result : Except ResolveFail (RegisteredPlugin γ ω))
  /-- The request is gone, its compile goes on -/
  | detached
  | dropped

structure Resolve (γ ω : Type) where
  name : String
  begun : Nat := 0
  ended : Nat := 0
  state : ResolveState γ ω := .start

inductive ResolveInput where
  | run
  | crash (detail : String)
  | drop

namespace DynamicRegistry

variable {γ ω : Type}

def hit (reg : DynamicRegistry γ ω) (name : String) (version : Nat × Nat × Nat)
    : Option (RegisteredPlugin γ ω) :=
  ((reg.cache.lookup name).filter fun c => c.version == version).map CachedModule.plugin

def cached (reg : DynamicRegistry γ ω) (cfg : DynamicConfig) (name : String) (version : Nat × Nat × Nat)
    (module : WasmModule γ ω) (hasDealloc : Bool)
    : DynamicRegistry γ ω × RegisteredPlugin γ ω :=
  let states := if reg.states.contains name then reg.states else reg.states ++ [name]
  let plugin : RegisteredPlugin γ ω := {
    name := name
    module := module
    settings := (cfg.settings.lookup name).getD []
    timeout := cfg.timeoutMs
    failPolicy := cfg.onFailure
    memoryMb := cfg.maxMemoryMb
    state := states.idxOf name
    hasDealloc := hasDealloc
  }
  ({ reg with states, cache := reg.cache.insert name { version, plugin } }, plugin)

def unlock (reg : DynamicRegistry γ ω) (name : String) : DynamicRegistry γ ω :=
  { reg with gates := reg.gates.erase name }

end DynamicRegistry

namespace Resolve

variable {γ ω : Type}

def act (env : CompileEnv γ ω) (cfg : DynamicConfig) (reg : DynamicRegistry γ ω) (t : Resolve γ ω)
    (x : ResolveInput)
    : Option (DynamicRegistry γ ω × Resolve γ ω) :=
  match t.state, x with
  | .start, .run =>
    let t := { t with begun := reg.dir.length, ended := reg.dir.length }
    if !validName t.name then
      some (reg, { t with state := .returned (.error .invalidName) })
    else
      match reg.dir.file t.name with
      | some f => some (reg, { t with state := .checking f.version })
      | none => some (reg, { t with state := .evicting })
  | .evicting, .run =>
    some ({ reg with cache := reg.cache.erase t.name },
      { t with state := .returned (.error .notFound), ended := reg.dir.length })
  | .checking version, .run =>
    match reg.hit t.name version with
    | some plugin => some (reg, { t with state := .returned (.ok plugin), ended := reg.dir.length })
    | none => some (reg, { t with state := .waiting version })
  | .waiting version, .run =>
    if t.name ∈ reg.gates then
      none
    else
      some ({ reg with gates := insert t.name reg.gates }, { t with state := .gated version })
  | .waiting _, .drop => some (reg, { t with state := .dropped })
  | .gated version, .run =>
    match reg.hit t.name version with
    | some plugin => some (reg, { t with state := .leaving (.ok plugin) })
    | none => some (reg, { t with state := .reading version })
  | .reading version, .run =>
    match reg.dir.file t.name with
    | some f => some (reg, { t with state := .compiling version f.bytes })
    | none => some (reg, { t with state := .built version (.error (env.readFailed t.name)) })
  | .compiling version bytes, .run =>
    some (reg, { t with state := .built version (env.compileBytes bytes) })
  | .reading version, .crash detail | .compiling version _, .crash detail =>
    some (reg, { t with state := .built version (.error ("compiler task failed: " ++ detail)) })
  | .reading _, .drop | .compiling .., .drop =>
    some (reg.unlock t.name, { t with state := .detached })
  | .built version result, .run =>
    let reg := { reg with compiled := reg.compiled + 1 }
    match result with
    | .ok (module, hasDealloc) =>
      let (reg, plugin) := reg.cached cfg t.name version module hasDealloc
      some (reg, { t with state := .leaving (.ok plugin) })
    | .error e => some (reg, { t with state := .leaving (.error (.build e)) })
  | .built .., .drop => some (reg.unlock t.name, { t with state := .dropped })
  | .leaving result, .run =>
    some (reg.unlock t.name, { t with state := .returned result, ended := reg.dir.length })
  | .detached, .run => some (reg, { t with state := .dropped })
  | _, _ => none

end Resolve

inductive DirTask (γ ω : Type) where
  | resolve (t : Resolve γ ω)
  | change (name : String) (file : Option ModuleFile)
  | changed

inductive DirCall where
  | resolve (name : String)
  | change (name : String) (file : Option ModuleFile)

namespace DirTask

variable {γ ω : Type}

def spawn (c : DirCall) : DirTask γ ω :=
  match c with
  | .resolve name => .resolve { name := name }
  | .change name file => .change name file

def act (env : CompileEnv γ ω) (cfg : DynamicConfig) (reg : DynamicRegistry γ ω) (t : DirTask γ ω)
    (x : ResolveInput)
    : Option (DynamicRegistry γ ω × DirTask γ ω) :=
  match t, x with
  | .resolve t, x => (t.act env cfg reg x).map fun y => (y.1, .resolve y.2)
  | .change name file, .run => some ({ reg with dir := reg.dir ++ [(name, file)] }, .changed)
  | _, _ => none

end DirTask

abbrev DirTasks (γ ω : Type) := Pool (DynamicRegistry γ ω) (DirTask γ ω)

abbrev DirTasks.Event := Pool.Event DirCall ResolveInput

def DirTasks.step {γ ω : Type} (env : CompileEnv γ ω) (cfg : DynamicConfig)
    : DirTasks γ ω → Event → Option (DirTasks γ ω) :=
  Pool.step DirTask.spawn (DirTask.act env cfg)

def DirTasks.start (γ ω : Type) : DirTasks γ ω := { shared := {}, threads := [] }

end OpenRusty
