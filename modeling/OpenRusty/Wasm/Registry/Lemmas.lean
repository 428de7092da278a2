import OpenRusty.Lib.Fallible
import OpenRusty.Wasm.Registry.Basic

/-!
This module contains the specification of one reload call: a call that succeeds publishes the successor
of the snapshot that it was built from, what it carries over is taken from that snapshot, and every
other step leaves the published snapshot alone.
-/

namespace OpenRusty

namespace PluginRegistry

variable {γ ω : Type} {reg reg' : PluginRegistry γ ω} {a b : PluginSnapshot γ ω}

def Carries (a b : PluginSnapshot γ ω) : Prop :=
  ∀ plugin ∈ b.plugins, ∀ state, stateOf a.plugins plugin.name = some state → plugin.state = state

def Follows (a b : PluginSnapshot γ ω) : Prop :=
  b.generation = a.generation + 1 ∧ Carries a b

theorem loadPlugin_eq_ok {env : BuildEnv γ ω} {cfg : PluginsConfig} {name : String} {state : Nat}
    {plugin : RegisteredPlugin γ ω} (h : loadPlugin env cfg name state = .ok plugin)
    : plugin.name = name ∧ plugin.state = state := by
  simp only [loadPlugin, Except.bind_eq_ok] at h
  rcases h with ⟨bytes, -, module, -, hasDealloc, -, pre, -, h⟩
  cases h
  simp

theorem loadPlugins_cons_eq_ok {env : BuildEnv γ ω} {cfg : PluginsConfig}
    {prev plugins : List (RegisteredPlugin γ ω)} {free free' : Nat} {name : String}
    {names : List String} (h : loadPlugins env cfg prev free (name :: names) = .ok (plugins, free'))
    : ∃ plugin rest, plugins = plugin :: rest
      ∧ loadPlugin env cfg name ((stateOf prev name).getD free) = .ok plugin
      ∧ loadPlugins env cfg prev (if (stateOf prev name).isSome then free else free + 1) names
          = .ok (rest, free') := by
  simp only [loadPlugins, Except.bind_eq_ok] at h
  rcases h with ⟨plugin, hplugin, rest, hrest, h⟩
  cases h
  exact ⟨plugin, rest.1, rfl, hplugin, hrest⟩

theorem carries_of_loadPlugins {env : BuildEnv γ ω} {cfg : PluginsConfig}
    {prev plugins : List (RegisteredPlugin γ ω)} {free free' : Nat} {names : List String}
    (h : loadPlugins env cfg prev free names = .ok (plugins, free'))
    : ∀ plugin ∈ plugins, ∀ state, stateOf prev plugin.name = some state → plugin.state = state := by
  induction names generalizing free plugins with
  | nil =>
    cases h
    simp
  | cons name names ih =>
    rcases loadPlugins_cons_eq_ok h with ⟨plugin, rest, rfl, hplugin, hrest⟩
    intro p hp state hstate
    cases List.mem_cons.mp hp with
    | inl heq =>
      subst heq
      rcases loadPlugin_eq_ok hplugin with ⟨hname, hplace⟩
      rw [hplace, ← hname, hstate]
      rfl
    | inr hmem => apply ih hrest p hmem state hstate

theorem follows_of_build {env : BuildEnv γ ω} {cfg : PluginsConfig} {free free' : Nat}
    (h : build env cfg a free = .ok (b, free'))
    : Follows a b := by
  simp only [build, Except.bind_eq_ok] at h
  rcases h with ⟨names, -, plugins, hplugins, h⟩
  cases h
  refine ⟨rfl, ?_⟩
  apply carries_of_loadPlugins hplugins

def Distinct (a : PluginSnapshot γ ω) : Prop := (a.plugins.map fun p => p.name).Nodup

theorem orderPlugins_nodup {files order : List String} (h : order.Nodup)
    : (orderPlugins files order).Nodup := by
  unfold orderPlugins
  have hfold : ∀ out : List String, out.Nodup →
      (files.foldl (fun out f => if out.contains f then out else out ++ [f]) out).Nodup := by
    induction files with
    | nil =>
      intro out hout
      assumption
    | cons f files ih =>
      intro out hout
      rw [List.foldl_cons]
      apply ih
      . split
        . assumption
        . next hnot =>
          rw [List.contains_iff_mem] at hnot
          simp [List.nodup_append, hout]
          intro g hg heq
          exact hnot (heq ▸ hg)
  apply hfold
  apply h.filter

theorem names_of_loadPlugins {env : BuildEnv γ ω} {cfg : PluginsConfig}
    {prev plugins : List (RegisteredPlugin γ ω)} {free free' : Nat} {names : List String}
    (h : loadPlugins env cfg prev free names = .ok (plugins, free'))
    : plugins.map (fun p => p.name) = names := by
  induction names generalizing free plugins with
  | nil =>
    cases h
    rfl
  | cons name names ih =>
    rcases loadPlugins_cons_eq_ok h with ⟨plugin, rest, rfl, hplugin, hrest⟩
    rw [List.map_cons, ih hrest, (loadPlugin_eq_ok hplugin).1]

theorem distinct_of_build {env : BuildEnv γ ω} {cfg : PluginsConfig} {free free' : Nat}
    (h : build env cfg a free = .ok (b, free')) (horder : cfg.order.Nodup)
    : Distinct b := by
  simp only [build, Except.bind_eq_ok] at h
  rcases h with ⟨names, -, plugins, hplugins, h⟩
  cases h
  unfold Distinct
  dsimp
  rw [names_of_loadPlugins hplugins]
  apply orderPlugins_nodup horder

theorem stateOf_of_distinct (h : Distinct a) {plugin : RegisteredPlugin γ ω}
    (hmem : plugin ∈ a.plugins)
    : stateOf a.plugins plugin.name = some plugin.state := by
  unfold stateOf
  cases hfind : a.plugins.reverse.find? fun p => p.name == plugin.name with
  | none =>
    rw [List.find?_eq_none] at hfind
    have := hfind plugin (List.mem_reverse.mpr hmem)
    simp at this
  | some other =>
    have hname : other.name = plugin.name := by
      simpa using List.find?_some hfind
    have hother := List.mem_reverse.mp (List.mem_of_find?_eq_some hfind)
    rw [List.inj_on_of_nodup_map h hother hmem hname]
    rfl

namespace ReloadCall

def Prepared (swap : ArcSwap (PluginSnapshot γ ω)) (c : ReloadCall γ ω) : Prop :=
  match c with
  | .build _ _ version current => swap.history[version]? = some current
  | .publish _ _ version snap => ∃ current, swap.history[version]? = some current ∧ Follows current snap
  | _ => True

def succeeded (c : ReloadCall γ ω) : Option Nat :=
  match c with
  | .returned (.ok generation) => some generation
  | _ => none

def Ordered (c : ReloadCall γ ω) : Prop :=
  match c with
  | .load cfg _ => cfg.order.Nodup
  | .build cfg _ _ _ => cfg.order.Nodup
  | .publish cfg _ _ snap => cfg.order.Nodup ∧ Distinct snap
  | _ => True

theorem act_cases {c c' : ReloadCall γ ω} {x : ReloadInput γ ω} (h : c.act reg x = some (reg', c'))
    : c.succeeded = none ∧ reg.states <+: reg'.states
      ∧ (reg'.swap = reg.swap ∧ c'.succeeded = none ∧ (c.Prepared reg.swap → c'.Prepared reg.swap)
          ∧ (c.Ordered → c'.Ordered)
        ∨ ∃ cfg attempts snap, c = .publish cfg attempts reg.swap.version snap
          ∧ reg'.swap = reg.swap.store snap ∧ c' = .returned (.ok snap.generation)) := by
  unfold act at h
  split at h
  . cases h
    refine ⟨rfl, List.prefix_refl _, .inl ⟨rfl, rfl, ?_, id⟩⟩
    intro _
    apply ArcSwap.getElem?_version
  . split at h
    . next snap free hbuild =>
      cases h
      refine ⟨rfl, List.prefix_append _ _, .inl ⟨rfl, rfl, ?_, ?_⟩⟩
      . intro hc
        exact ⟨_, hc, follows_of_build hbuild⟩
      . intro hc
        exact ⟨hc, distinct_of_build hbuild hc⟩
    . cases h
      exact ⟨rfl, List.prefix_refl _, .inl ⟨rfl, rfl, fun _ => trivial, fun _ => trivial⟩⟩
  . cases h
    exact ⟨rfl, List.prefix_refl _, .inl ⟨rfl, rfl, fun _ => trivial, fun _ => trivial⟩⟩
  . cases h
    exact ⟨rfl, List.prefix_refl _, .inl ⟨rfl, rfl, fun _ => trivial, fun _ => trivial⟩⟩
  . next cfg attempts version snap =>
    unfold ArcSwap.compareAndSwap at h
    split at h
    . next swap heq =>
      split at heq
      . next hversion =>
        cases heq
        cases h
        subst hversion
        exact ⟨rfl, List.prefix_refl _, .inr ⟨cfg, attempts, snap, rfl, rfl, rfl⟩⟩
      . cases heq
    . split at h
      . cases h
        exact ⟨rfl, List.prefix_refl _, .inl ⟨rfl, rfl, fun _ => trivial, fun _ => trivial⟩⟩
      . cases h
        exact ⟨rfl, List.prefix_refl _, .inl ⟨rfl, rfl, fun _ => trivial, fun hc => hc.1⟩⟩
  . cases h

theorem follows_of_prepared {swap : ArcSwap (PluginSnapshot γ ω)} (cfg : PluginsConfig)
    (attempts : Nat) {snap : PluginSnapshot γ ω}
    (h : (publish cfg attempts swap.version snap).Prepared swap)
    : Follows swap.current snap := by
  rcases h with ⟨current, hcurrent, hfollows⟩
  rw [ArcSwap.getElem?_version] at hcurrent
  cases hcurrent
  assumption

theorem swap_of_act {c c' : ReloadCall γ ω} {x : ReloadInput γ ω} (h : c.act reg x = some (reg', c'))
    (hc' : c'.succeeded = none)
    : reg'.swap = reg.swap := by
  rcases act_cases h with ⟨-, -, ⟨hswap, -⟩ | ⟨cfg, attempts, snap, -, -, rfl⟩⟩
  . assumption
  . cases hc'

theorem Prepared.store {swap : ArcSwap (PluginSnapshot γ ω)} {c : ReloadCall γ ω}
    (h : c.Prepared swap) (snap : PluginSnapshot γ ω)
    : c.Prepared (swap.store snap) := by
  cases c with
  | build cfg attempts version current => apply ArcSwap.getElem?_store h
  | publish cfg attempts version next =>
    rcases h with ⟨current, hcurrent, hfollows⟩
    exact ⟨current, ArcSwap.getElem?_store hcurrent snap, hfollows⟩
  | _ => trivial

end ReloadCall

namespace User

def succeeded (u : User γ ω) : Option Nat :=
  match u with
  | .reload call => call.succeeded
  | _ => none

def Prepared (swap : ArcSwap (PluginSnapshot γ ω)) (u : User γ ω) : Prop :=
  match u with
  | .reload call => call.Prepared swap
  | _ => True

def Ordered (u : User γ ω) : Prop :=
  match u with
  | .reload call => call.Ordered
  | _ => True

def isKv (u : User γ ω) : Bool :=
  match u with
  | .kv .. => true
  | _ => false

theorem act_cases {u u' : User γ ω} {x : ReloadInput γ ω} (h : u.act reg x = some (reg', u'))
    : u.succeeded = none ∧ (u.isKv = false → reg.states <+: reg'.states)
      ∧ (reg'.swap = reg.swap ∧ u'.succeeded = none ∧ (u.Prepared reg.swap → u'.Prepared reg.swap)
          ∧ (u.Ordered → u'.Ordered)
        ∨ ∃ cfg attempts snap, u = .reload (.publish cfg attempts reg.swap.version snap)
          ∧ reg'.swap = reg.swap.store snap ∧ u' = .reload (.returned (.ok snap.generation))) := by
  unfold act at h
  split at h
  . rw [Option.map_eq_some_iff] at h
    rcases h with ⟨⟨reg1, call⟩, hcall, heq⟩
    cases heq
    rcases ReloadCall.act_cases hcall with ⟨hnone, hstates, hcases⟩
    refine ⟨hnone, fun _ => hstates, ?_⟩
    rcases hcases with hkept | ⟨cfg, attempts, snap, rfl, hswap, rfl⟩
    . left
      assumption
    . right
      exact ⟨cfg, attempts, snap, rfl, hswap, rfl⟩
  . cases h
    refine ⟨rfl, ?_, .inl ⟨rfl, rfl, fun _ => trivial, fun _ => trivial⟩⟩
    intro hkv
    cases hkv
  . cases h

theorem Prepared.store {swap : ArcSwap (PluginSnapshot γ ω)} {u : User γ ω} (h : u.Prepared swap)
    (snap : PluginSnapshot γ ω)
    : u.Prepared (swap.store snap) := by
  cases u with
  | reload call => apply ReloadCall.Prepared.store h
  | _ => trivial

end User

end PluginRegistry

end OpenRusty
