import OpenRusty.Server.Dynamic.Plane
import OpenRusty.Wasm.ResolveLemmas

/-!
This module contains the proof that a removed module stays away: no request that looks for the file behind
its removal starts the module, and behind the answer no route leads to it, until somebody brings the module
back. A request that has found the file before may still start it, from the cache or from the bytes that it
has read. The swaps of other calls on the table do not bring it back, whatever they loaded before.
-/

namespace OpenRusty

namespace DynamicRoutes

def Free (t : DynamicRoutes) (module : String) : Prop := ∀ e ∈ t.views, e.2.module ≠ module

variable {t : DynamicRoutes} {module : String}

theorem free_empty (module : String) : Free {} module := by
  intro e he
  cases he

theorem module_of_bindingOf {method path name : String} {key : String × String} {b : Binding}
    (h : bindingOf method path name = some (key, b))
    : b.module = name := by
  unfold bindingOf at h
  split at h
  . split at h
    . cases h
      rfl
    . cases h
  . cases h

theorem Free.bindOwned (h : t.Free module) {debug : String → String} {method path name : String} {owned : Bool}
    {next : DynamicRoutes} (hname : name ≠ module) (hbind : bindOwned debug t method path name owned = .ok next)
    : next.Free module := by
  cases hbinding : bindingOf method path name with
  | none =>
    obtain ⟨e, he⟩ := bindOwned_of_bindingOf_eq_none debug t hbinding owned
    rw [he] at hbind
    cases hbind
  | some x =>
    obtain ⟨key, b⟩ := x
    rw [bindOwned_of_bindingOf debug t hbinding] at hbind
    split at hbind
    . cases hbind
    . cases hbind
      intro e he
      rcases List.mem_cons.mp ((views_put t key b owned).mem_iff.mp he) with rfl | hold
      . rw [module_of_bindingOf hbinding]
        exact hname
      . exact h e (List.mem_filter.mp hold).1

theorem Free.unbindModule (h : t.Free module) (name : String) : (t.unbindModule name).1.Free module := by
  intro e he
  rw [views_unbindModule, List.mem_filter] at he
  exact h e he.1

theorem Free.reconcile (h : t.Free module) {debug : String → String} {routes : List DynamicRoute}
    (hroutes : ∀ r ∈ routes, r.module ≠ module)
    : (t.reconcile debug routes).Free module := by
  have hkept : (t.configKeys.foldl remove { t with configKeys := [] }).Free module := by
    intro e he
    rw [views_foldl_remove] at he
    exact h e (List.mem_filter.mp he).1
  unfold DynamicRoutes.reconcile
  dsimp only
  generalize t.configKeys.foldl remove { t with configKeys := [] } = kept at hkept
  induction routes generalizing kept with
  | nil => exact hkept
  | cons r routes ih =>
    rw [List.foldl_cons]
    apply ih
    . intro r' hr'
      exact hroutes r' (List.mem_cons_of_mem r hr')
    . split
      . next next hbind => exact hkept.bindOwned (hroutes r List.mem_cons_self) hbind
      . exact hkept

theorem Free.lookup_ne (h : t.Free module) (method path : String) : t.lookup method path ≠ some module := by
  intro hlook
  unfold lookup at hlook
  dsimp only at hlook
  split at hlook
  . next m hexact =>
    cases hlook
    refine h ⟨(toAsciiUppercase method, path), ⟨.exact, module⟩⟩ ?_ rfl
    apply List.mem_append_left
    rw [List.mem_map]
    exact ⟨_, AList.mem_lookup_iff.mp hexact, rfl⟩
  . obtain ⟨b, hb, rfl⟩ := Option.map_eq_some_iff.mp hlook
    refine h ⟨b.1, ⟨.wildcard, b.2⟩⟩ ?_ rfl
    apply List.mem_append_right
    rw [List.mem_map]
    exact ⟨b, List.mem_of_find?_eq_some hb, rfl⟩

end DynamicRoutes

namespace RouteCall

def Leads (call : RouteCall) (module : String) : Prop :=
  match call with
  | .bindDynamicRoute _ _ name => name = module
  | .applyDynamicRoutes (some routes) => ∃ r ∈ routes, r.module = module
  | _ => False

theorem free_of_step {debug : String → String} {t next : DynamicRoutes} {c : RouteCall × RouteReply} {module : String}
    (h : t.Free module) (hc : ¬c.1.Leads module) (hstep : Step debug t c next)
    : next.Free module := by
  rcases hstep with hexec | ⟨-, rfl⟩
  . obtain ⟨call, reply⟩ := c
    unfold exec at hexec
    cases call with
    | bindDynamicRoute method path name =>
      dsimp only at hexec
      split at hexec
      . next next hbind =>
        cases hexec
        exact h.bindOwned hc hbind
      . cases hexec
        exact h
    | unbindDynamicModule name =>
      cases hexec
      exact h.unbindModule name
    | applyDynamicRoutes routes =>
      cases routes with
      | none =>
        cases hexec
        exact DynamicRoutes.free_empty module
      | some routes =>
        cases hexec
        apply h.reconcile
        intro r hr heq
        exact hc ⟨r, hr, heq⟩
  . exact h

theorem prepared_of_act {debug : String → String} {s s' : RouteTable} {t t' : RouteTask} {x : Unit}
    (h : act debug s t x = some (s', t'))
    : t'.call = t.call ∧ t'.Prepared debug s' ∧ ∀ u : RouteTask, u.Prepared debug s → u.Prepared debug s' := by
  rcases act_cases h with
    ⟨attempt, -, rfl, rfl⟩ | ⟨attempt, next, reply, -, rfl, rfl⟩
      | ⟨attempt, version, next, reply, -, -, rfl, rfl | ⟨-, rfl⟩⟩ | ⟨loaded, next, -, rfl, rfl⟩
  . exact ⟨rfl, RouteTask.prepared_load debug s' t.call attempt, fun u hu => hu⟩
  . exact ⟨rfl, trivial, fun u hu => hu.store next⟩
  . exact ⟨rfl, trivial, fun u hu => hu⟩
  . exact ⟨rfl, trivial, fun u hu => hu⟩
  . exact ⟨rfl, trivial, fun u hu => hu.store next⟩

end RouteCall

namespace Resolve

variable {γ ω : Type} {env : CompileEnv γ ω} {cfg : DynamicConfig} {reg reg' : DynamicRegistry γ ω}
  {t t' : Resolve γ ω} {x : ResolveInput}

def found (t : Resolve γ ω) : Bool :=
  match t.state with
  | .checking _ | .waiting _ | .gated _ | .reading _ | .compiling .. | .built .. | .leaving _ => true
  | _ => false

theorem found_of_act (h : t.act env cfg reg x = some (reg', t')) (hnone : reg.dir.file t.name = none)
    (ht' : t'.found = true ∨ ∃ plugin, t'.state = .returned (.ok plugin))
    : t.found = true := by
  obtain ⟨name, begun, ended, state⟩ := t
  cases state with
  | start =>
    exfalso
    cases x with
    | run =>
      unfold act at h
      dsimp only at h hnone
      rw [hnone] at h
      split at h
      . cases h
        simp [found] at ht'
      . cases h
        simp [found] at ht'
    | crash detail => cases h
    | drop => cases h
  | evicting =>
    cases x with
    | run =>
      cases h
      simp [found] at ht'
    | crash detail => cases h
    | drop => cases h
  | detached =>
    cases x with
    | run =>
      cases h
      simp [found] at ht'
    | crash detail => cases h
    | drop => cases h
  | returned result => cases x <;> cases h
  | dropped => cases x <;> cases h
  | _ => rfl

end Resolve

namespace DynamicPlane

variable {γ ω : Type} {env : String → CompileEnv γ ω} {debug : String → String} {dir module : String}

def Call.Brings (call : Call) (module : String) : Prop :=
  match call with
  | .register r => r.name = module
  | .reload (some cfg) => ∃ r ∈ cfg.routes, r.module = module
  | .deliver _ name _ => name = module
  | _ => False

instance (call : Call) (module : String) : Decidable (call.Brings module) :=
  match call with
  | .register _ => inferInstanceAs (Decidable (_ = _))
  | .reload (some cfg) => inferInstanceAs (Decidable (∃ r ∈ cfg.routes, r.module = module))
  | .deliver .. => inferInstanceAs (Decidable (_ = _))
  | .reload none | .unregister _ | .fallback .. | .handleDynamic _ => inferInstanceAs (Decidable False)

/-- The step is nobody's who brings the module, and no update of the table is lost by it. -/
def Spares (module : String) (p : Plane γ ω) (e : Event) : Prop :=
  match e with
  | .spawn _ => True
  | .step i _ =>
    ∀ t ∈ p.threads[i]?, ¬t.call.Brings module ∧ ∀ r ∈ t.routeTask?, r.Undisturbed p.shared.routes

instance (module : String) (p : Plane γ ω) (e : Event) : Decidable (Spares module p e) :=
  match e with
  | .spawn _ => inferInstanceAs (Decidable True)
  | .step i _ => inferInstanceAs (Decidable (∀ t ∈ p.threads[i]?,
      ¬t.call.Brings module ∧ ∀ r ∈ t.routeTask?, r.Undisturbed p.shared.routes))

namespace Progress

/-- The directory and the name of the module that is started. -/
def started? (progress : Progress γ ω) : Option (String × String) :=
  match progress with
  | .returned (.invoked dir module _) => some (dir, module)
  | _ => none

/-- The module is started from the directory, or the request has found its file and may still start it. -/
def Found (dir module : String) (progress : Progress γ ω) : Prop :=
  match progress with
  | .resolving _ cfg t => cfg.dir = dir ∧ t.name = module ∧ t.found = true
  | progress => progress.started? = some (dir, module)

theorem found_of_started {progress : Progress γ ω} (h : progress.started? = some (dir, module))
    : progress.Found dir module := by
  unfold Found
  split
  . cases h
  . exact h

end Progress

namespace Task

variable {s s' : Modules γ ω} {t t' : Task γ ω} {x : Input} {r : RouteTask}

theorem brings_of_leads (h : t.routeTask? = some r) (hleads : r.call.Leads module) : t.call.Brings module := by
  unfold routeTask? at h
  split at h
  . next hcall _ =>
    cases h
    rw [hcall]
    exact hleads
  . cases h
    exact hleads.elim
  . next dynamic _ hcall _ =>
    cases h
    rw [hcall]
    cases dynamic with
    | none => exact hleads.elim
    | some cfg => exact hleads
  . cases h

theorem routeTask_spawn (call : Call) : (spawn call : Task γ ω).routeTask? = none := by
  cases call <;> rfl

def Plain (reply : Reply γ ω) : Prop := ∀ dir module plugin, reply ≠ .invoked dir module plugin

theorem not_found_of_plain {reply : Reply γ ω} (h : Plain reply) : ¬(Progress.returned reply).Found dir module := by
  intro hfound
  cases reply with
  | invoked dir' module' plugin => exact h dir' module' plugin rfl
  | _ => cases hfound

theorem routed_cases (h : t.routeTask? = some r) (progress : RouteProgress)
    : routeTask? { t with progress := t.routed progress } = some { call := r.call, progress := progress }
      ∨ ∃ reply, t.routed progress = .returned reply ∧ Plain reply := by
  obtain ⟨call, current⟩ := t
  unfold routeTask? at h
  split at h
  . next put method path old hcall hcurrent =>
    cases hcall
    cases hcurrent
    cases h
    unfold routed PutRequest.settle
    dsimp only
    split
    . exact .inr ⟨_, rfl, fun _ _ _ hreply => by cases hreply⟩
    . exact .inr ⟨_, rfl, fun _ _ _ hreply => by cases hreply⟩
    . exact .inl rfl
  . next name dir deleted old hcall hcurrent =>
    cases hcall
    cases hcurrent
    cases h
    unfold routed settleRemoval
    dsimp only
    split
    . split
      . exact .inr ⟨_, rfl, fun _ _ _ hreply => by cases hreply⟩
      . exact .inr ⟨_, rfl, fun _ _ _ hreply => by cases hreply⟩
    . exact .inl rfl
  . next dynamic old hcall hcurrent =>
    cases hcall
    cases hcurrent
    cases h
    unfold routed
    dsimp only
    split
    . exact .inr ⟨_, rfl, fun _ _ _ hreply => by cases hreply⟩
    . exact .inl rfl
  . cases h

theorem routeTask_returned (call : Call) (reply : Reply γ ω)
    : routeTask? { call := call, progress := .returned reply } = none := by
  cases call <;> rfl

theorem not_found_of_routeTask (h : t.routeTask? = some r) : ¬t.progress.Found dir module := by
  unfold routeTask? at h
  split at h
  . next hprogress =>
    rw [hprogress]
    exact nofun
  . next hprogress =>
    rw [hprogress]
    exact nofun
  . next hprogress =>
    rw [hprogress]
    exact nofun
  . cases h

theorem file_write (s : Modules γ ω) {d n : String} {file : Option ModuleFile} (h : n ≠ module ∨ file = none)
    (hnone : (s.dirs dir).file module = none)
    : ((s.write d n file).dirs dir).file module = none := by
  unfold Modules.write
  dsimp only
  by_cases hdir : dir = d
  . rw [hdir, Function.update_self, ModuleDir.file_concat]
    split
    . next hname =>
      rcases h with hne | hfile
      . exact absurd hname.symm hne
      . exact hfile
    . rw [← hdir]
      exact hnone
  . rw [Function.update_of_ne hdir]
    exact hnone

structure Frame (dir module : String) (s s' : Modules γ ω) (t : Task γ ω) (progress : Progress γ ω) : Prop where
  routes : s'.routes = s.routes
  gone : ¬t.call.Brings module → (s.dirs dir).file module = none → (s'.dirs dir).file module = none
  loading : ∀ r, routeTask? { call := t.call, progress := progress } = some r → ∃ attempt, r.progress = .loading attempt
  found : progress.Found dir module → (s.dirs dir).file module = none → t.progress.Found dir module

theorem frame_of_plain {reply : Reply γ ω} (hreply : Plain reply) (hroutes : s'.routes = s.routes)
    (hgone : ¬t.call.Brings module → (s.dirs dir).file module = none → (s'.dirs dir).file module = none)
    : Frame dir module s s' t (.returned reply) where
  routes := hroutes
  gone := hgone
  loading := by
    intro r hr
    rw [routeTask_returned] at hr
    cases hr
  found := fun hfound => absurd hfound (not_found_of_plain hreply)

theorem frame_of_still {progress : Progress γ ω}
    (hroute : routeTask? { call := t.call, progress := progress } = none)
    (hfound : ¬progress.Found dir module)
    : Frame dir module s s t progress where
  routes := rfl
  gone := fun _ hnone => hnone
  loading := by
    intro r hr
    rw [hroute] at hr
    cases hr
  found := fun h => absurd h hfound

theorem ofPut_receive (admin : DynamicAdmin) (r : PutRequest) (files : ModuleStore)
    : (∃ reply, (ofPut (r.receive admin files).2 : Progress γ ω) = .returned reply ∧ Plain reply)
      ∨ ∃ method path, (ofPut (r.receive admin files).2 : Progress γ ω) = .binding method path (.loading 0) := by
  rcases PutRequest.receive_cases with ⟨-, response, h, -⟩ | ⟨-, -, method, path, h⟩ | ⟨body, h⟩
  . rw [h]
    exact .inl ⟨_, rfl, fun _ _ _ h => by cases h⟩
  . rw [h]
    exact .inr ⟨method, path, rfl⟩
  . rw [PutRequest.receive_uploads h]
    split
    . exact .inr ⟨_, _, rfl⟩
    . exact .inl ⟨_, rfl, fun _ _ _ h => by cases h⟩
    . exact .inl ⟨_, rfl, fun _ _ _ h => by cases h⟩

theorem frame_of_register {put : PutRequest} (hcall : t.call = .register put) (debug : String → String) (d : String)
    (x : Input)
    : Frame dir module s (register debug s d put x).1 t (register debug s d put x).2 := by
  have hgone : ¬t.call.Brings module → (s.dirs dir).file module = none →
      (((register debug s d put x).1.dirs dir).file module = none) := by
    intro hbrings hnone
    rw [hcall] at hbrings
    unfold register
    dsimp only
    cases put.uploads? { enabled := true, validate := x.validate, store := x.store, debug := debug } with
    | none => exact hnone
    | some bytes => exact file_write s (.inl hbrings) hnone
  have hroutes : (register debug s d put x).1.routes = s.routes := by
    unfold register
    dsimp only
    cases put.uploads? { enabled := true, validate := x.validate, store := x.store, debug := debug } <;> rfl
  have hprogress := ofPut_receive (γ := γ) (ω := ω)
    { enabled := true, validate := x.validate, store := x.store, debug := debug } put (s.files d)
  rcases hprogress with ⟨reply, hreply, hplain⟩ | ⟨method, path, hbinding⟩
  . rw [show (register debug s d put x).2 = .returned reply from hreply]
    exact frame_of_plain hplain hroutes hgone
  . rw [show (register debug s d put x).2 = .binding method path (.loading 0) from hbinding]
    refine ⟨hroutes, hgone, ?_, nofun⟩
    intro r hr
    rw [hcall] at hr
    cases hr
    exact ⟨0, rfl⟩

theorem frame_of_unregister {name : String} (hcall : t.call = .unregister name) (d : String) (x : Input)
    : Frame dir module s (unregister s d name x).1 t (unregister s d name x).2 := by
  unfold unregister
  split
  . exact frame_of_plain (fun _ _ _ h => by cases h) rfl fun _ hnone => hnone
  . refine ⟨rfl, fun _ => file_write s (.inr rfl), ?_, nofun⟩
    intro r hr
    rw [hcall] at hr
    cases hr
    exact ⟨0, rfl⟩

theorem frame_of_applyDynamic {dynamic : Option DynamicConfig} (hcall : t.call = .reload dynamic)
    : Frame dir module s (s.applyDynamic dynamic) t (.reconciling (.loading 0)) := by
  have hsame : (s.applyDynamic dynamic).routes = s.routes ∧ (s.applyDynamic dynamic).dirs = s.dirs := by
    unfold Modules.applyDynamic
    split
    . exact ⟨rfl, rfl⟩
    . split
      . exact ⟨rfl, rfl⟩
      . exact ⟨rfl, rfl⟩
  refine ⟨hsame.1, ?_, ?_, nofun⟩
  . intro _ hnone
    rw [hsame.2, hnone]
  . intro r hr
    rw [hcall] at hr
    cases hr
    exact ⟨0, rfl⟩

theorem invoke_found {place : Nat} {cfg : DynamicConfig} {u : Resolve γ ω} (h : (invoke place cfg u).Found dir module)
    : cfg.dir = dir ∧ u.name = module ∧ (u.found = true ∨ ∃ plugin, u.state = .returned (.ok plugin)) := by
  unfold invoke at h
  split at h
  . next plugin hstate =>
    cases h
    exact ⟨rfl, rfl, .inr ⟨plugin, hstate⟩⟩
  . next e hstate => cases e <;> cases h
  . exact ⟨h.1, h.2.1, .inl h.2.2⟩

theorem routeTask_invoke (call : Call) (place : Nat) (cfg : DynamicConfig) (u : Resolve γ ω)
    : routeTask? { call := call, progress := invoke place cfg u } = none := by
  unfold invoke
  split
  . apply routeTask_returned
  . apply routeTask_returned
  . cases call <;> rfl

theorem frame_of_resolve {place : Nat} {cfg : DynamicConfig} {u : Resolve γ ω} {progress : Progress γ ω}
    (hprogress : t.progress = .resolving place cfg u) (h : resolve env s place cfg u x = some (s', progress))
    : Frame dir module s s' t progress := by
  unfold resolve at h
  obtain ⟨reg, -, h⟩ := Option.bind_eq_some_iff.mp h
  obtain ⟨⟨reg', u'⟩, hact, h⟩ := Option.map_eq_some_iff.mp h
  cases h
  have hname := (Resolve.gates_act hact).1
  refine ⟨rfl, fun _ hnone => hnone, ?_, ?_⟩
  . intro r hr
    rw [routeTask_invoke] at hr
    cases hr
  . intro hfound hnone
    obtain ⟨hdir, hmodule, hfound⟩ := invoke_found hfound
    rw [hname] at hmodule
    rw [← hdir, ← hmodule] at hnone
    rw [hprogress]
    exact ⟨hdir, hmodule, Resolve.found_of_act hact hnone hfound⟩

theorem frame_of_advance {progress : Progress γ ω} (h : t.advance env debug s x = some (s', progress))
    : Frame dir module s s' t progress := by
  obtain ⟨call, current⟩ := t
  unfold advance at h
  split at h
  . next put hcall hcurrent =>
    cases hcall
    split at h
    . cases h
      exact frame_of_plain (fun _ _ _ hreply => by cases hreply) rfl fun _ hnone => hnone
    . cases h
      exact frame_of_still rfl nofun
  . next put d hcall hcurrent =>
    cases hcall
    have hframe : Frame dir module s _ ⟨.register put, current⟩ _ := frame_of_register rfl debug d x
    rw [Option.some.inj h] at hframe
    exact hframe
  . next name hcall hcurrent =>
    cases hcall
    split at h
    . cases h
      exact frame_of_plain (fun _ _ _ hreply => by cases hreply) rfl fun _ hnone => hnone
    . split at h
      . cases h
        exact frame_of_still rfl nofun
      . cases h
        exact frame_of_plain (fun _ _ _ hreply => by cases hreply) rfl fun _ hnone => hnone
  . next name d hcall hcurrent =>
    cases hcall
    have hframe : Frame dir module s _ ⟨.unregister name, current⟩ _ := frame_of_unregister rfl d x
    rw [Option.some.inj h] at hframe
    exact hframe
  . next dynamic hcall hcurrent =>
    cases hcall
    cases h
    exact frame_of_applyDynamic rfl
  . next d name file hcall hcurrent =>
    cases hcall
    cases h
    exact frame_of_plain (fun _ _ _ hreply => by cases hreply) rfl fun hbrings => file_write s (.inl hbrings)
  . next method path hcall hcurrent =>
    cases hcall
    split at h
    . cases h
      exact frame_of_plain (fun _ _ _ hreply => by cases hreply) rfl fun _ hnone => hnone
    . cases h
      exact frame_of_still rfl nofun
  . next method path hcall hcurrent =>
    cases hcall
    split at h
    . cases h
      exact frame_of_plain (fun _ _ _ hreply => by cases hreply) rfl fun _ hnone => hnone
    . cases h
      exact frame_of_still rfl nofun
  . next name hcurrent =>
    split at h
    . cases h
      exact frame_of_plain (fun _ _ _ hreply => by cases hreply) rfl fun _ hnone => hnone
    . cases h
      exact frame_of_still (by cases call <;> rfl) nofun
  . next place cfg name hcurrent =>
    split at h
    . cases h
      exact frame_of_still (by cases call <;> rfl) (fun hfound => Bool.noConfusion hfound.2.2)
    . cases h
      exact frame_of_plain (fun _ _ _ hreply => by cases hreply) rfl fun _ hnone => hnone
  . next place cfg u hcurrent =>
    exact frame_of_resolve hcurrent h
  . cases h

theorem act_cases (h : act env debug s t x = some (s', t'))
    : (∃ r table progress, t.routeTask? = some r
        ∧ RouteCall.act debug s.routes r () = some (table, { call := r.call, progress := progress })
        ∧ s' = { s with routes := table } ∧ t' = { t with progress := t.routed progress })
      ∨ t.routeTask? = none
        ∧ ∃ progress, t' = { t with progress := progress } ∧ ∀ dir module, Frame dir module s s' t progress := by
  unfold act at h
  split at h
  . next r hr =>
    obtain ⟨⟨table, r'⟩, hact, hresult⟩ := Option.map_eq_some_iff.mp h
    cases hresult
    obtain ⟨hcall, -⟩ := RouteCall.prepared_of_act hact
    obtain ⟨call, progress⟩ := r'
    cases hcall
    exact .inl ⟨r, table, progress, hr, hact, rfl, rfl⟩
  . next hr =>
    obtain ⟨⟨s₁, progress⟩, hadvance, hresult⟩ := Option.map_eq_some_iff.mp h
    cases hresult
    exact .inr ⟨hr, progress, rfl, fun dir module => frame_of_advance hadvance⟩

def Prepared (debug : String → String) (s : Modules γ ω) (t : Task γ ω) : Prop :=
  ∀ r, t.routeTask? = some r → r.Prepared debug s.routes

theorem prepared_of_act (h : act env debug s t x = some (s', t'))
    : t'.Prepared debug s' ∧ ∀ u : Task γ ω, u.Prepared debug s → u.Prepared debug s' := by
  rcases act_cases h with ⟨r, table, progress, hr, hact, rfl, rfl⟩ | ⟨hr, progress, rfl, hframe⟩
  . obtain ⟨-, hself, hothers⟩ := RouteCall.prepared_of_act hact
    refine ⟨?_, fun u hu r' hr' => hothers r' (hu r' hr')⟩
    intro r' hr'
    rcases routed_cases hr progress with hgoes | ⟨reply, hreply, -⟩
    . rw [hgoes] at hr'
      cases hr'
      exact hself
    . rw [hreply, routeTask_returned] at hr'
      cases hr'
  . refine ⟨?_, ?_⟩
    . intro r' hr'
      obtain ⟨attempt, hload⟩ := (hframe "" "").loading r' hr'
      unfold RouteTask.Prepared
      rw [hload]
      trivial
    . intro u hu r' hr'
      rw [(hframe "" "").routes]
      exact hu r' hr'

theorem free_of_act (hprep : t.Prepared debug s) (hbrings : ¬t.call.Brings module)
    (hok : ∀ r ∈ t.routeTask?, r.Undisturbed s.routes) (h : act env debug s t x = some (s', t'))
    (hfree : s.routes.current.Free module)
    : s'.routes.current.Free module := by
  rcases act_cases h with ⟨r, table, progress, hr, hact, rfl, rfl⟩ | ⟨hr, progress, rfl, hframe⟩
  . rcases RouteCalls.effect_of_act (hprep r hr) (hok r hr) hact with ⟨hsame, -⟩ | ⟨c, -, hc, hstep⟩
    . dsimp only
      rw [hsame]
      exact hfree
    . have hcall : c.1 = r.call := by
        unfold RouteTask.reply at hc
        split at hc
        . cases hc
          rfl
        . cases hc
      apply RouteCall.free_of_step hfree _ hstep
      rw [hcall]
      intro hleads
      exact hbrings (brings_of_leads hr hleads)
  . rw [(hframe "" "").routes]
    exact hfree

theorem act_returned (s : Modules γ ω) (call : Call) (reply : Reply γ ω) (x : Input)
    : act env debug s { call := call, progress := .returned reply } x = none := by
  unfold act
  rw [routeTask_returned]
  cases call <;> rfl

theorem gone_of_act (hbrings : ¬t.call.Brings module) (h : act env debug s t x = some (s', t'))
    (hnone : (s.dirs dir).file module = none)
    : (s'.dirs dir).file module = none ∧ (t'.progress.Found dir module → t.progress.Found dir module) := by
  rcases act_cases h with ⟨r, table, progress, hr, hact, rfl, rfl⟩ | ⟨hr, progress, rfl, hframe⟩
  . refine ⟨hnone, ?_⟩
    intro hfound
    exfalso
    rcases routed_cases hr progress with hgoes | ⟨reply, hreply, hplain⟩
    . exact not_found_of_routeTask hgoes hfound
    . dsimp only at hfound
      rw [hreply] at hfound
      exact not_found_of_plain hplain hfound
  . refine ⟨(hframe dir module).gone hbrings hnone, ?_⟩
    intro hfound
    exact (hframe dir module).found hfound hnone

end Task

def Prepared (debug : String → String) (p : Plane γ ω) : Prop :=
  ∀ (i : Nat) t, p.threads[i]? = some t → t.Prepared debug p.shared

theorem prepared_of_step {p q : Plane γ ω} {e : Event} (h : Prepared debug p) (hstep : step env debug p e = some q)
    : Prepared debug q := by
  rcases Pool.step_cases _ _ hstep with ⟨call, rfl, rfl⟩ | ⟨i, x, t, s, t', rfl, ht, hact, rfl⟩
  . apply Pool.forall_concat _ h
    intro r hr
    rw [Task.routeTask_spawn] at hr
    cases hr
  . obtain ⟨hself, hothers⟩ := Task.prepared_of_act hact
    exact Pool.forall_set hself fun j u _ hu => hothers u (h j u hu)

def Answers (module : String) (existed : Bool) (reply : Reply γ ω) : Prop :=
  existed = false ∧ reply = .text 404 "404 dynamic module not found\n"
    ∨ ∃ unbound, reply = .removed module existed unbound

structure Removing (dir module : String) (existed : Bool) (i : Nat) (p : Plane γ ω) : Prop where
  gone : (p.shared.dirs dir).file module = none
  thread : ∃ progress, p.threads[i]? = some { call := .unregister module, progress := progress }
    ∧ ((∃ route, progress = .unbinding dir existed route)
      ∨ p.shared.routes.current.Free module ∧ ∃ reply, progress = .returned reply ∧ Answers module existed reply)

theorem free_of_unbinding {s s' : Modules γ ω} {x : Input} {existed : Bool} {route : RouteProgress} {t' : Task γ ω}
    (hprep : Task.Prepared debug s { call := .unregister module, progress := .unbinding dir existed route })
    (hok : RouteTask.Undisturbed s.routes { call := .unbindDynamicModule module, progress := route })
    (h : Task.act env debug s { call := .unregister module, progress := .unbinding dir existed route } x
      = some (s', t'))
    : ∃ progress, t' = { call := .unregister module, progress := progress }
      ∧ ((∃ route, progress = .unbinding dir existed route)
        ∨ s'.routes.current.Free module ∧ ∃ reply, progress = .returned reply ∧ Answers module existed reply) := by
  rcases Task.act_cases h with ⟨r, table, progress, hr, hact, rfl, rfl⟩ | ⟨hr, -⟩
  . cases hr
    refine ⟨_, rfl, ?_⟩
    unfold Task.routed Task.settleRemoval
    dsimp only
    split
    . next unbound =>
      right
      have hreply := RouteCalls.reply_of_act hact
      rcases RouteCalls.effect_of_act (hprep _ rfl) hok hact with ⟨-, hsame⟩ | ⟨c, -, hc, hstep⟩
      . rw [hreply] at hsame
        cases hsame
      . refine ⟨RouteCalls.honoured_of_step hc hstep, ?_⟩
        split
        . next hnothing =>
          rw [Bool.and_eq_true, Bool.not_eq_true'] at hnothing
          exact ⟨_, rfl, .inl ⟨hnothing.1, rfl⟩⟩
        . exact ⟨_, rfl, .inr ⟨unbound, rfl⟩⟩
    . exact .inl ⟨progress, rfl⟩
  . cases hr

theorem not_found_spawn (call : Call) : ¬(Task.spawn call : Task γ ω).progress.Found dir module := by
  cases call <;> exact nofun

theorem removing_of_step {p q : Plane γ ω} {e : Event} {i : Nat} {existed : Bool} (hprep : Prepared debug p)
    (h : Removing dir module existed i p) (hok : Spares module p e) (hstep : step env debug p e = some q)
    : Removing dir module existed i q
      ∧ ∀ (j : Nat) t, q.threads[j]? = some t → t.progress.Found dir module →
          ∃ u, p.threads[j]? = some u ∧ u.progress.Found dir module := by
  obtain ⟨hgone, progress, hi, hprogress⟩ := h
  rcases Pool.step_cases _ _ hstep with ⟨call, rfl, rfl⟩ | ⟨k, x, t, s, t', rfl, ht, hact, rfl⟩
  . refine ⟨⟨hgone, progress, ?_, hprogress⟩, ?_⟩
    . rw [List.getElem?_append_left (List.getElem?_eq_some_iff.mp hi).1]
      exact hi
    . intro j t ht hfound
      rcases Pool.getElem?_concat_cases ht with rfl | hold
      . exact absurd hfound (not_found_spawn call)
      . exact ⟨t, hold, hfound⟩
  . obtain ⟨hbrings, hundisturbed⟩ := hok t ht
    obtain ⟨hgone', hfound⟩ := Task.gone_of_act hbrings hact hgone
    refine ⟨⟨hgone', ?_⟩, ?_⟩
    . by_cases hk : k = i
      . subst hk
        rw [hi] at ht
        cases ht
        rcases hprogress with ⟨route, rfl⟩ | ⟨-, reply, rfl, -⟩
        . obtain ⟨progress', rfl, hprogress'⟩ := free_of_unbinding (hprep k _ hi) (hundisturbed _ rfl) hact
          refine ⟨progress', ?_, hprogress'⟩
          exact List.getElem?_set_self (List.getElem?_eq_some_iff.mp hi).1
        . rw [Task.act_returned] at hact
          cases hact
      . refine ⟨progress, ?_, ?_⟩
        . rw [List.getElem?_set_ne hk]
          exact hi
        . refine hprogress.imp_right ?_
          rintro ⟨hfree, hreply⟩
          exact ⟨Task.free_of_act (hprep k t ht) hbrings hundisturbed hact hfree, hreply⟩
    . intro j u hu hufound
      rcases Pool.getElem?_set_cases hu with ⟨rfl, rfl⟩ | ⟨-, hold⟩
      . exact ⟨t, ht, hfound hufound⟩
      . exact ⟨u, hold, hufound⟩

theorem prepared_boot (dynamic : Option DynamicConfig) (dirs : String → ModuleDir)
    : Prepared debug (boot debug dynamic dirs : Plane γ ω) := by
  intro i t ht
  cases ht

structure Away (debug : String → String) (dir module : String) (existed : Bool) (i : Nat) (q r : Plane γ ω) : Prop where
  prepared : Prepared debug r
  removing : Removing dir module existed i r
  found : ∀ (j : Nat) t, r.threads[j]? = some t → t.progress.Found dir module →
    ∃ u, q.threads[j]? = some u ∧ u.progress.Found dir module

theorem removing_of_unregister {p q : Plane γ ω} {i : Nat} {x : Input}
    (hi : p.threads[i]? = some { call := .unregister module, progress := .removing dir }) (hremove : x.remove = .ok ())
    (hstep : step env debug p (.step i x) = some q)
    : Removing dir module ((p.shared.dirs dir).file module).isSome i q := by
  have hact : Task.act env debug p.shared ⟨.unregister module, .removing dir⟩ x
      = some (p.shared.write dir module none,
          ⟨.unregister module, .unbinding dir ((p.shared.dirs dir).file module).isSome (.loading 0)⟩) := by
    have hunregister : Task.unregister p.shared dir module x
        = (p.shared.write dir module none,
            .unbinding dir ((p.shared.dirs dir).file module).isSome (.loading 0)) := by
      unfold Task.unregister
      rw [hremove]
    change some _ = some _
    rw [hunregister]
  have hq : q = ⟨p.shared.write dir module none, p.threads.set i ⟨.unregister module,
      .unbinding dir ((p.shared.dirs dir).file module).isSome (.loading 0)⟩⟩ := by
    unfold step Pool.step at hstep
    dsimp only at hstep
    rw [hi, Option.bind_some, hact] at hstep
    exact (Option.some.inj hstep).symm
  subst hq
  refine ⟨?_, _, List.getElem?_set_self (List.getElem?_eq_some_iff.mp hi).1, .inl ⟨_, rfl⟩⟩
  change (Function.update p.shared.dirs dir _ dir).file module = none
  rw [Function.update_self, ModuleDir.file_concat, if_pos rfl]

section removed

variable {dynamic : Option DynamicConfig} {dirs : String → ModuleDir}
variable {es after : List Event} {p q r : Plane γ ω} {i : Nat} {x : Input}

/-- A removed module stays away until somebody brings it back. -/
theorem removed_for_good (hrun : Machine.run (step env debug) (boot debug dynamic dirs) es = some p)
    (hi : p.threads[i]? = some { call := .unregister module, progress := .removing dir }) (hremove : x.remove = .ok ())
    (hstep : step env debug p (.step i x) = some q) (hok : Machine.Guarded (step env debug) (Spares module) q after)
    (hafter : Machine.run (step env debug) q after = some r)
    : (r.shared.dirs dir).file module = none
      ∧ (∀ (j : Nat) t, r.threads[j]? = some t → t.progress.started? = some (dir, module) →
          ∃ u, q.threads[j]? = some u ∧ u.progress.Found dir module)
      ∧ ∀ t reply, r.threads[i]? = some t → t.progress = .returned reply →
          Answers module ((p.shared.dirs dir).file module).isSome reply
            ∧ ∀ method path, r.shared.routeHit method path ≠ some module := by
  have hprep : Prepared debug q :=
    prepared_of_step (Machine.inv_of_run_all (fun _ _ _ h hs => prepared_of_step h hs)
      (prepared_boot dynamic dirs) hrun) hstep
  have hstart : Away debug dir module ((p.shared.dirs dir).file module).isSome i q q :=
    ⟨hprep, removing_of_unregister hi hremove hstep, fun _ t ht hfound => ⟨t, ht, hfound⟩⟩
  have haway : Away debug dir module ((p.shared.dirs dir).file module).isSome i q r := by
    apply Machine.inv_of_run _ hstart hok hafter
    intro s e t hs hspares hs'
    obtain ⟨hremoving, hnew⟩ := removing_of_step hs.prepared hs.removing hspares hs'
    refine ⟨prepared_of_step hs.prepared hs', hremoving, ?_⟩
    intro j u hu hfound
    obtain ⟨v, hv, hvfound⟩ := hnew j u hu hfound
    exact hs.found j v hv hvfound
  obtain ⟨hgone, progress, hthread, hprogress⟩ := haway.removing
  refine ⟨hgone, fun j t ht hstarted => haway.found j t ht (Progress.found_of_started hstarted), ?_⟩
  intro t reply ht hreply
  rw [hthread] at ht
  cases ht
  rcases hprogress with ⟨route, hunbinding⟩ | ⟨hfree, reply', hreturned, hanswers⟩
  . rw [hunbinding] at hreply
    cases hreply
  . rw [hreturned] at hreply
    cases hreply
    exact ⟨hanswers, fun method path => hfree.lookup_ne method path⟩

end removed

def helloConfig : DynamicConfig where
  dir := "modules"
  routes := [{ method := "GET", path := "/hello", module := "hello" }]

def helloDirs (dir : String) : ModuleDir :=
  if dir = "modules" then [("hello", some { version := (0, 0, 1), bytes := [0] })] else []

def quietInput : Input where
  validate _ := .ok ()
  store := .ok ()
  version := (0, 0, 0)
  remove := .ok ()
  buffered := true
  resolve := .run

def steps (i n : Nat) : List Event := List.replicate n (.step i quietInput)

def helloRequested : List Event :=
  [.spawn (.fallback "GET" "/hello")] ++ steps 0 12
    ++ [.spawn (.fallback "GET" "/hello")] ++ steps 1 5
    ++ [.spawn (.fallback "GET" "/hello")] ++ steps 2 2
    ++ [.spawn (.unregister "hello")] ++ steps 3 1

def helloRemoved : List Event :=
  steps 1 1 ++ steps 2 4 ++ steps 3 2 ++ [.spawn (.fallback "GET" "/hello")] ++ steps 4 2

def status? (progress : Progress Unit Unit) : Option Nat :=
  match progress with
  | .returned (.text status _) => some status
  | .returned (.removed ..) => some 200
  | .returned (.invoked ..) => some 200
  | _ => none

theorem returned_of_status {progress : Progress Unit Unit} {n : Nat} (h : status? progress = some n)
    : ∃ reply, progress = .returned reply := by
  unfold status? at h
  split at h
  . exact ⟨_, rfl⟩
  . exact ⟨_, rfl⟩
  . exact ⟨_, rfl⟩
  . cases h

def outline (p : Plane Unit Unit) : List (Option (String × String) × Option Nat) :=
  p.threads.map fun t => (t.progress.started?, status? t.progress)

theorem thread_of_outline {p : Plane Unit Unit} {i : Nat} {o : Option (String × String) × Option Nat}
    (h : (outline p)[i]? = some o)
    : ∃ t, p.threads[i]? = some t ∧ t.progress.started? = o.1 ∧ status? t.progress = o.2 := by
  unfold outline at h
  rw [List.getElem?_map, Option.map_eq_some_iff] at h
  obtain ⟨t, ht, rfl⟩ := h
  exact ⟨t, ht, rfl, rfl⟩

def removing? (t : Task Unit Unit) : Option (String × String) :=
  match t.call, t.progress with
  | .unregister name, .removing dir => some (name, dir)
  | _, _ => none

theorem eq_of_removing {t : Task Unit Unit} {name dir : String} (h : removing? t = some (name, dir))
    : t = { call := .unregister name, progress := .removing dir } := by
  obtain ⟨call, progress⟩ := t
  unfold removing? at h
  split at h
  . next hcall hprogress =>
    cases hcall
    cases hprogress
    cases h
    rfl
  . cases h

abbrev helloStep : Plane Unit Unit → Event → Option (Plane Unit Unit) := step (fun _ => acceptingEnv) id

theorem removed_for_good_hello
    : ∃ p q r, Machine.run helloStep (boot id (some helloConfig) helloDirs) helloRequested = some p
        ∧ helloStep p (.step 3 quietInput) = some q ∧ Machine.run helloStep q helloRemoved = some r
        ∧ (r.shared.dirs "modules").file "hello" = none
        ∧ (∃ t, r.threads[1]? = some t ∧ t.progress.started? = some ("modules", "hello")
          ∧ ∃ u, q.threads[1]? = some u ∧ u.progress.Found "modules" "hello")
        ∧ (∃ t, r.threads[2]? = some t ∧ status? t.progress = some 404)
        ∧ ∀ method path, r.shared.routeHit method path ≠ some "hello" := by
  have hall : Machine.Guarded helloStep (Spares "hello") (boot id (some helloConfig) helloDirs)
      (helloRequested ++ .step 3 quietInput :: helloRemoved) := by
    decide +kernel
  have hend : (Machine.run helloStep (boot id (some helloConfig) helloDirs)
      (helloRequested ++ .step 3 quietInput :: helloRemoved)).map outline
        = some [(some ("modules", "hello"), some 200), (some ("modules", "hello"), some 200), (none, some 404),
          (none, some 200), (none, none)] := by
    decide +kernel
  have hremoving : (Machine.run helloStep (boot id (some helloConfig) helloDirs) helloRequested).map
      (fun p => p.threads[3]?.bind removing?) = some (some ("hello", "modules")) := by
    decide +kernel
  obtain ⟨r, hr, houtline⟩ := Option.map_eq_some_iff.mp hend
  rw [Machine.run_append] at hr
  obtain ⟨p, hp, hr⟩ := Option.bind_eq_some_iff.mp hr
  obtain ⟨q, hq, hr⟩ := (Machine.run_cons_eq_some _).mp hr
  have hi : p.threads[3]? = some { call := .unregister "hello", progress := .removing "modules" } := by
    rw [hp] at hremoving
    obtain ⟨t, ht, heq⟩ := Option.bind_eq_some_iff.mp (Option.some.inj hremoving)
    rw [ht, eq_of_removing heq]
  have hok := (hall.of_append.2 p hp).2 q hq
  obtain ⟨hgone, hstarted, hanswer⟩ := removed_for_good hp hi rfl hq hok hr
  obtain ⟨t₁, ht₁, hstarted₁, -⟩ := thread_of_outline (i := 1) (by rw [houtline]; rfl)
  obtain ⟨t₂, ht₂, -, hstatus₂⟩ := thread_of_outline (i := 2) (by rw [houtline]; rfl)
  obtain ⟨t₃, ht₃, -, hstatus₃⟩ := thread_of_outline (i := 3) (by rw [houtline]; rfl)
  obtain ⟨reply, hreply⟩ := returned_of_status hstatus₃
  refine ⟨p, q, r, hp, hq, hr, hgone, ⟨t₁, ht₁, hstarted₁, hstarted 1 t₁ ht₁ hstarted₁⟩, ⟨t₂, ht₂, hstatus₂⟩, ?_⟩
  exact (hanswer t₃ reply ht₃ hreply).2

end DynamicPlane

end OpenRusty
