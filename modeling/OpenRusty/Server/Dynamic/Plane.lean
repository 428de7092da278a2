import OpenRusty.Server.DynamicAdmin

/-!
This module contains the dynamic modules at run time (`dynamic_admin.rs`, `dynamic_api.rs`, `state.rs`): any
number of registrations, removals, reloads and requests at a time. They share the directories of the
modules, the registries with their caches and gates, the one that is in force and the table of the routes,
and an event is one step of one of them between two accesses to these. A request looks for its module in
the steps of `Resolve`.
-/

namespace OpenRusty

namespace DynamicPlane

variable {γ ω : Type}

structure Modules (γ ω : Type) where
  /-- All registries so far; a request keeps the one that it has found -/
  registries : List (DynamicRegistry γ ω)
  /-- The one in force and its section, `none` while the section is not there -/
  registry : Option (Nat × DynamicConfig)
  -- by path; registries of one path share the files
  dirs : String → ModuleDir
  routes : RouteTable

inductive Call where
  | register (r : PutRequest)
  | unregister (name : String)
  -- the part of a publish that is about the dynamic modules
  | reload (dynamic : Option DynamicConfig)
  /-- Somebody writes or removes a file in a directory -/
  | deliver (dir name : String) (file : Option ModuleFile)
  | fallback (method path : String)
  | handleDynamic (name : String)
  deriving DecidableEq

inductive Reply (γ ω : Type) where
  | put (response : PutResponse)
  | text (status : Nat) (body : String)
  | removed (module : String) (deleted : Bool) (unbound : Nat)
  | done
  -- the request goes on to the pipeline of the proxy
  | handleRequest
  -- the module is started; what it does then is up to the module
  | invoked (dir module : String) (plugin : RegisteredPlugin γ ω)

inductive Progress (γ ω : Type) where
  | arrived
  | receiving (dir : String)
  | binding (method path : String) (progress : RouteProgress)
  | removing (dir : String)
  | unbinding (dir : String) (deleted : Bool) (progress : RouteProgress)
  | reconciling (progress : RouteProgress)
  -- the section is there, what is next is the table
  | probing
  | dispatching (name : String)
  | buffering (place : Nat) (cfg : DynamicConfig) (name : String)
  | resolving (place : Nat) (cfg : DynamicConfig) (t : Resolve γ ω)
  | returned (reply : Reply γ ω)

structure Task (γ ω : Type) where
  call : Call
  progress : Progress γ ω

/-- What the compiler, the client and the file system answer to a step. -/
structure Input where
  validate : Bytes → Except String Unit
  store : Except String Unit
  -- of a file that the step writes
  version : Nat × Nat × Nat
  /-- No error stands for a file that is removed or was not there -/
  remove : Except String Unit
  /-- Whether the body of the request is read and within the limit -/
  buffered : Bool
  resolve : ResolveInput

variable (env : String → CompileEnv γ ω) (debug : String → String)

def Modules.files (s : Modules γ ω) (dir : String) : ModuleStore where
  artifacts name := ((s.dirs dir).file name).map ModuleFile.bytes
  routes := s.routes

def Modules.write (s : Modules γ ω) (dir name : String) (file : Option ModuleFile) : Modules γ ω :=
  { s with dirs := Function.update s.dirs dir (s.dirs dir ++ [(name, file)]) }

def Modules.applyDynamic (s : Modules γ ω) (dynamic : Option DynamicConfig) : Modules γ ω :=
  if s.registry.map Prod.snd = dynamic then
    s
  else
    match dynamic with
    | none => { s with registry := none }
    | some cfg => { s with registries := s.registries ++ [{}], registry := some (s.registries.length, cfg) }

def Modules.routeHit (s : Modules γ ω) (method path : String) : Option String := s.routes.current.lookup method path

namespace Task

def spawn (call : Call) : Task γ ω :=
  match call with
  | .handleDynamic name => { call := call, progress := .dispatching name }
  | call => { call := call, progress := .arrived }

def ofPut (progress : PutProgress) : Progress γ ω :=
  match progress with
  | .received => .arrived
  | .binding method path progress => .binding method path progress
  | .responded response => .returned (.put response)

def register (s : Modules γ ω) (dir : String) (r : PutRequest) (x : Input) : Modules γ ω × Progress γ ω :=
  let admin : DynamicAdmin := { enabled := true, validate := x.validate, store := x.store, debug := debug }
  let written := (r.uploads? admin).elim s fun bytes => s.write dir r.name (some { version := x.version, bytes := bytes })
  (written, ofPut (r.receive admin (s.files dir)).2)

def unregister (s : Modules γ ω) (dir name : String) (x : Input) : Modules γ ω × Progress γ ω :=
  match x.remove with
  | .error e => (s, .returned (.text 500 ("500 remove " ++ dir ++ "/" ++ name ++ ".wasm: " ++ e ++ "\n")))
  | .ok () => (s.write dir name none, .unbinding dir ((s.dirs dir).file name).isSome (.loading 0))

def settleRemoval (name dir : String) (deleted : Bool) (progress : RouteProgress) : Progress γ ω :=
  match progress with
  | .returned (.unbound unbound) =>
    if !deleted && unbound == 0 then
      .returned (.text 404 "404 dynamic module not found\n")
    else
      .returned (.removed name deleted unbound)
  | progress => .unbinding dir deleted progress

def ofFail (e : ResolveFail) : Reply γ ω :=
  match e with
  | .invalidName => .text 400 "400\n"
  | .notFound => .text 404 "404\n"
  | .build _ => .text 500 "500\n"

def invoke (place : Nat) (cfg : DynamicConfig) (t : Resolve γ ω) : Progress γ ω :=
  match t.state with
  | .returned (.ok plugin) => .returned (.invoked cfg.dir t.name plugin)
  | .returned (.error e) => .returned (ofFail e)
  | _ => .resolving place cfg t

def resolve (s : Modules γ ω) (place : Nat) (cfg : DynamicConfig) (t : Resolve γ ω) (x : Input)
    : Option (Modules γ ω × Progress γ ω) :=
  s.registries[place]?.bind fun reg =>
    (t.act (env cfg.dir) cfg { reg with dir := s.dirs cfg.dir } x.resolve).map fun y =>
      ({ s with registries := s.registries.set place y.1 }, invoke place cfg y.2)

def routeTask? (t : Task γ ω) : Option RouteTask :=
  match t.call, t.progress with
  | .register r, .binding method path progress =>
    some { call := .bindDynamicRoute method path r.name, progress := progress }
  | .unregister name, .unbinding _ _ progress => some { call := .unbindDynamicModule name, progress := progress }
  | .reload dynamic, .reconciling progress =>
    some { call := .applyDynamicRoutes (dynamic.map DynamicConfig.routes), progress := progress }
  | _, _ => none

def routed (t : Task γ ω) (progress : RouteProgress) : Progress γ ω :=
  match t.call, t.progress with
  | .register r, .binding method path _ => ofPut (r.settle method path progress)
  | .unregister name, .unbinding dir deleted _ => settleRemoval name dir deleted progress
  | .reload _, .reconciling _ =>
    match progress with
    | .returned _ => .returned .done
    | progress => .reconciling progress
  | _, progress => progress

def advance (s : Modules γ ω) (t : Task γ ω) (x : Input) : Option (Modules γ ω × Progress γ ω) :=
  match t.call, t.progress with
  | .register _, .arrived =>
    match s.registry with
    | none => some (s, .returned (.text 404 "404 not found\n"))
    | some (_, cfg) => some (s, .receiving cfg.dir)
  | .register r, .receiving dir => some (register debug s dir r x)
  | .unregister name, .arrived =>
    match s.registry with
    | none => some (s, .returned (.text 404 "404 not found\n"))
    | some (_, cfg) =>
      if validName name then
        some (s, .removing cfg.dir)
      else
        some (s, .returned (.text 400 "400 invalid dynamic module name\n"))
  | .unregister name, .removing dir => some (unregister s dir name x)
  | .reload dynamic, .arrived => some (s.applyDynamic dynamic, .reconciling (.loading 0))
  | .deliver dir name file, .arrived => some (s.write dir name file, .returned .done)
  | .fallback _ _, .arrived =>
    if s.registry.isNone then some (s, .returned .handleRequest) else some (s, .probing)
  | .fallback method path, .probing =>
    match s.routeHit method path with
    | none => some (s, .returned .handleRequest)
    | some name => some (s, .dispatching name)
  | _, .dispatching name =>
    match s.registry with
    | none => some (s, .returned (.text 404 "404 not found\n"))
    | some (place, cfg) => some (s, .buffering place cfg name)
  | _, .buffering place cfg name =>
    if x.buffered then
      some (s, .resolving place cfg { name := name })
    else
      some (s, .returned (.text 413 "413 payload too large\n"))
  | _, .resolving place cfg t => resolve env s place cfg t x
  | _, _ => none

def act (s : Modules γ ω) (t : Task γ ω) (x : Input) : Option (Modules γ ω × Task γ ω) :=
  match t.routeTask? with
  | some r =>
    (RouteCall.act debug s.routes r ()).map fun y =>
      ({ s with routes := y.1 }, { t with progress := t.routed y.2.progress })
  | none => (t.advance env debug s x).map fun y => (y.1, { t with progress := y.2 })

end Task

abbrev Plane (γ ω : Type) := Pool (Modules γ ω) (Task γ ω)

abbrev Event := Pool.Event Call Input

def step : Plane γ ω → Event → Option (Plane γ ω) := Pool.step Task.spawn (Task.act env debug)

def boot (dynamic : Option DynamicConfig) (dirs : String → ModuleDir) : Plane γ ω where
  shared := {
    registries := dynamic.elim [] fun _ => [{}]
    registry := dynamic.map fun cfg => (0, cfg)
    dirs := dirs
    routes := ArcSwap.new (DynamicRoutes.reconcile debug {} ((dynamic.map DynamicConfig.routes).getD []))
  }
  threads := []

end DynamicPlane

end OpenRusty
