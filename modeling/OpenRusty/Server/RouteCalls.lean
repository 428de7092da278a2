import OpenRusty.Lib.ArcSwap
import OpenRusty.Lib.Pool
import OpenRusty.Server.DynamicRoutes

/-!
This module contains the calls that change the shared table of the dynamic routes (`state.rs`), any number
of them at a time: a registration and the removal of a module swap the table that they loaded if it is
still there and try again if it is not, a reload loads the table and stores the reconciled one.
-/

namespace OpenRusty

inductive RouteCall where
  | bindDynamicRoute (method path module : String)
  | unbindDynamicModule (module : String)
  -- `none` is a configuration without the section
  | applyDynamicRoutes (routes : Option (List DynamicRoute))
  deriving DecidableEq

inductive RouteReply where
  | bound (result : Except String Unit)
  | unbound (removed : Nat)
  | applied
  deriving DecidableEq

inductive RouteProgress where
  | loading (attempt : Nat)
  | swapping (attempt version : Nat) (next : DynamicRoutes) (reply : RouteReply)
  | storing (loaded : Option DynamicRoutes) (next : DynamicRoutes)
  | returned (reply : RouteReply)
  deriving DecidableEq

structure RouteTask where
  call : RouteCall
  progress : RouteProgress
  deriving DecidableEq

abbrev RouteTable := ArcSwap DynamicRoutes

namespace RouteCall

def attempts : Nat := 8

def contention : RouteReply := .bound (.error "dynamic route table contention; retry")

def exhausted (call : RouteCall) : RouteReply :=
  match call with
  | .bindDynamicRoute .. => contention
  | .unbindDynamicModule _ => .unbound 0
  | .applyDynamicRoutes _ => .applied

variable (debug : String → String)

def load (call : RouteCall) (attempt : Nat) (s : RouteTable) : RouteProgress :=
  match call with
  | .bindDynamicRoute method path module =>
    match s.current.bind debug method path module with
    | .ok next => .swapping attempt s.version next (.bound (.ok ()))
    | .error e => .returned (.bound (.error e))
  | .unbindDynamicModule module =>
    let (next, removed) := s.current.unbindModule module
    .swapping attempt s.version next (.unbound removed)
  | .applyDynamicRoutes none => .storing none {}
  | .applyDynamicRoutes (some routes) => .storing (some s.current) (s.current.reconcile debug routes)

def swap (call : RouteCall) (attempt version : Nat) (next : DynamicRoutes) (reply : RouteReply)
    (s : RouteTable) : RouteTable × RouteProgress :=
  match s.compareAndSwap version next with
  | (true, s) => (s, .returned reply)
  | (false, s) =>
    if attempt + 1 < attempts then (s, .loading (attempt + 1)) else (s, .returned call.exhausted)

def spawn (call : RouteCall) : RouteTask := { call := call, progress := .loading 0 }

def act (s : RouteTable) (t : RouteTask) (_ : Unit) : Option (RouteTable × RouteTask) :=
  match t.progress with
  | .loading attempt => some (s, { t with progress := t.call.load debug attempt s })
  | .swapping attempt version next reply =>
    let (s, progress) := t.call.swap attempt version next reply s
    some (s, { t with progress := progress })
  | .storing _ next => some (s.store next, { t with progress := .returned .applied })
  | .returned _ => none

def exec (t : DynamicRoutes) (call : RouteCall) : DynamicRoutes × RouteReply :=
  match call with
  | .bindDynamicRoute method path module =>
    match t.bind debug method path module with
    | .ok next => (next, .bound (.ok ()))
    | .error e => (t, .bound (.error e))
  | .unbindDynamicModule module =>
    let (next, removed) := t.unbindModule module
    (next, .unbound removed)
  | .applyDynamicRoutes none => ({}, .applied)
  | .applyDynamicRoutes (some routes) => (t.reconcile debug routes, .applied)

end RouteCall

abbrev RouteCalls := Pool RouteTable RouteTask

abbrev RouteCalls.Event := Pool.Event RouteCall Unit

def RouteCalls.step (debug : String → String) : RouteCalls → Event → Option RouteCalls :=
  Pool.step RouteCall.spawn (RouteCall.act debug)

def RouteCalls.start (t : DynamicRoutes) : RouteCalls := { shared := ArcSwap.new t, threads := [] }

def RouteTask.reply (t : RouteTask) : Option (RouteCall × RouteReply) :=
  match t.progress with
  | .returned reply => some (t.call, reply)
  | _ => none

end OpenRusty
