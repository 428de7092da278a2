import Mathlib.Data.Finset.Basic
import OpenRusty.Server.DynamicRoutes

/-!
This module contains what the table of the dynamic routes is for: one map from a method and a base path
to a binding, and the set of the keys that the configuration owns. A request is dispatched to the exact
binding of its path, or else to the longest base that its path is under.
-/

namespace OpenRusty

inductive BindingShape where
  | exact
  | wildcard
  deriving DecidableEq, Repr

structure Binding where
  shape : BindingShape
  module : String
  deriving DecidableEq, Repr

def BindingShape.of (path : String) : BindingShape :=
  if "/*".toList.isSuffixOf path.toList then .wildcard else .exact

def bindingOf (method path module : String) : Option ((String × String) × Binding) :=
  match DynamicConfig.normalizeMethod method, DynamicConfig.normalizeRoutePath path with
  | some m, some p =>
    if DynamicConfig.validModuleName module then
      some ((m, DynamicConfig.basePath p), { shape := .of p, module := module })
    else
      none
  | _, _ => none

def routeKey (method path : String) : Option (String × String) :=
  match DynamicConfig.normalizeMethod method, DynamicConfig.normalizeRoutePath path with
  | some m, some p => some (m, DynamicConfig.basePath p)
  | _, _ => none

structure BindingMap where
  bindings : AList fun _ : String × String => Binding := ∅
  owned : Finset (String × String) := ∅

namespace BindingMap

def full (a : BindingMap) (key : String × String) : Prop :=
  a.bindings.lookup key = none ∧ DynamicRoutes.maxBindings ≤ a.bindings.entries.length

instance (a : BindingMap) (key : String × String) : Decidable (a.full key) :=
  inferInstanceAs (Decidable (_ ∧ _))

def bind (a : BindingMap) (key : String × String) (b : Binding) (owned : Bool) : BindingMap :=
  if a.full key then
    a
  else
    { bindings := a.bindings.insert key b, owned := if owned then insert key a.owned else a.owned }

def bindRoute (a : BindingMap) (method path module : String) (owned : Bool) : BindingMap :=
  match bindingOf method path module with
  | some (key, b) => a.bind key b owned
  | none => a

def unbind (a : BindingMap) (key : String × String) : BindingMap :=
  { bindings := a.bindings.erase key, owned := a.owned.erase key }

def unbindModule (a : BindingMap) (module : String) : BindingMap :=
  let bindings := a.bindings.retain fun _ b => b.module != module
  { bindings := bindings, owned := a.owned.filter fun key => (bindings.lookup key).isSome }

def kept (a : BindingMap) : BindingMap :=
  { bindings := a.bindings.retain fun key _ => decide (key ∉ a.owned) }

def reconcile (a : BindingMap) (routes : List DynamicRoute) : BindingMap :=
  routes.foldl (fun a r => a.bindRoute r.method r.path r.module true) a.kept

def exec (a : BindingMap) (op : RouteOp) : BindingMap :=
  match op with
  | .bind method path module => a.bindRoute method path module false
  | .unbind method path => (routeKey method path).elim a a.unbind
  | .unbindModule module => a.unbindModule module
  | .reconcile routes => a.reconcile routes

def Under (base path : String) : Prop :=
  path = base ∨ base.toList ++ ['/'] <+: path.toList

inductive Dispatch (a : BindingMap) (method path : String) : Option String → Prop where
  | exact {module : String} (h : a.bindings.lookup (method, path) = some ⟨.exact, module⟩)
    : Dispatch a method path (some module)
  | longest {base module : String}
      (hexact : ∀ m, a.bindings.lookup (method, path) ≠ some ⟨.exact, m⟩)
      (h : a.bindings.lookup (method, base) = some ⟨.wildcard, module⟩) (hunder : Under base path)
      (hbest : ∀ base' m, a.bindings.lookup (method, base') = some ⟨.wildcard, m⟩ →
        Under base' path → base' ≠ base → len base' < len base)
    : Dispatch a method path (some module)
  | unbound (hexact : ∀ m, a.bindings.lookup (method, path) ≠ some ⟨.exact, m⟩)
      (hnone : ∀ base m, a.bindings.lookup (method, base) = some ⟨.wildcard, m⟩ → ¬Under base path)
    : Dispatch a method path none

end BindingMap

end OpenRusty
