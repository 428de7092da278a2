import Mathlib.Data.List.AList
import Mathlib.Data.List.Sort
import OpenRusty.Core.Validate
import OpenRusty.Lib.FinMap

/-!
This module contains the table of the dynamic route bindings (`dynamic_routes.rs`). Every operation
builds a new table from the one that is there.
-/

namespace OpenRusty

structure DynamicRoutes where
  exact : AList fun _ : String × String => String := ∅
  -- the longest one first
  prefixes : List ((String × String) × String) := []
  configKeys : List (String × String) := []
  deriving DecidableEq

namespace DynamicRoutes

def maxBindings : Nat := 4096

def size (t : DynamicRoutes) : Nat := t.exact.entries.length + t.prefixes.length

def contains (t : DynamicRoutes) (key : String × String) : Bool :=
  (t.exact.lookup key).isSome || t.prefixes.any fun b => b.1 == key

def remove (t : DynamicRoutes) (key : String × String) : DynamicRoutes :=
  { t with exact := t.exact.erase key, prefixes := t.prefixes.filter fun b => b.1 != key }

def addPrefix (t : DynamicRoutes) (key : String × String) (module : String) : DynamicRoutes :=
  let t := t.remove key
  let sorted := (t.prefixes ++ [(key, module)]).insertionSort fun a b =>
    len b.1.1 + len b.1.2 ≤ len a.1.1 + len a.1.2
  { t with prefixes := sorted }

def addExact (t : DynamicRoutes) (key : String × String) (module : String) : DynamicRoutes :=
  { t with
    exact := t.exact.insert key module,
    prefixes := t.prefixes.filter fun b => b.1 != key }

def own (t : DynamicRoutes) (key : String × String) : DynamicRoutes :=
  { t with configKeys := (t.configKeys.filter fun k => k != key) ++ [key] }

def covers (base path : String) : Bool :=
  startsWith path base && (path.toList.drop base.toList.length).head?.all fun c => c == '/'

def lookup (t : DynamicRoutes) (method path : String) : Option String :=
  let method := toAsciiUppercase method
  match t.exact.lookup (method, path) with
  | some module => some module
  | none => (t.prefixes.find? fun b => b.1.1 == method && covers b.1.2 path).map Prod.snd

variable (debug : String → String)

def bindOwned (t : DynamicRoutes) (method path module : String) (owned : Bool)
    : Except String DynamicRoutes :=
  match DynamicConfig.normalizeMethod method, DynamicConfig.normalizeRoutePath path with
  | none, _ => .error ("invalid method " ++ debug method)
  | _, none => .error ("invalid path " ++ debug path ++ ": must start with '/'")
  | some m, some p =>
    if !DynamicConfig.validModuleName module then
      .error ("invalid module " ++ debug module ++ ": must match ^[A-Za-z0-9][A-Za-z0-9._-]*$")
    else
      let key := (m, DynamicConfig.basePath p)
      if !t.contains key && decide (maxBindings ≤ t.size) then
        .error ("dynamic route table full (" ++ toString maxBindings ++ " bindings)")
      else
        let next := if "/*".toList.isSuffixOf p.toList then t.addPrefix key module
          else t.addExact key module
        .ok (if owned then next.own key else next)

def bind (t : DynamicRoutes) (method path module : String) : Except String DynamicRoutes :=
  bindOwned debug t method path module false

def unbind (t : DynamicRoutes) (method path : String) : DynamicRoutes :=
  match DynamicConfig.normalizeMethod method, DynamicConfig.normalizeRoutePath path with
  | some m, some p =>
    let key := (m, DynamicConfig.basePath p)
    { t.remove key with configKeys := t.configKeys.filter fun k => k != key }
  | _, _ => t

def unbindModule (t : DynamicRoutes) (module : String) : DynamicRoutes × Nat :=
  let next := { t with
    exact := t.exact.retain fun _ m => m != module
    prefixes := t.prefixes.filter fun b => b.2 != module }
  let next := { next with configKeys := t.configKeys.filter next.contains }
  (next, t.size - next.size)

def reconcile (t : DynamicRoutes) (routes : List DynamicRoute) : DynamicRoutes :=
  let kept := t.configKeys.foldl remove { t with configKeys := [] }
  routes.foldl
    (fun t r =>
      match bindOwned debug t r.method r.path r.module true with
      | .ok next => next
      | .error _ => t)
    kept

end DynamicRoutes

inductive RouteOp where
  | bind (method path module : String)
  | unbind (method path : String)
  | unbindModule (module : String)
  | reconcile (routes : List DynamicRoute)
  deriving DecidableEq

def DynamicRoutes.exec (debug : String → String) (t : DynamicRoutes) (op : RouteOp) : DynamicRoutes :=
  match op with
  | .bind method path module =>
    match t.bind debug method path module with
    | .ok next => next
    | .error _ => t
  | .unbind method path => t.unbind method path
  | .unbindModule module => (t.unbindModule module).1
  | .reconcile routes => t.reconcile debug routes

end OpenRusty
