import OpenRusty.Server.Reload.Basic
import OpenRusty.Wasm.Registry.Lemmas

/-!
This module contains what a step of a reload can do, and the proof that a failed reload changes nothing:
every step that can fail comes before the publication of the plugins, and a reload that got there does
not fail any more.
-/

namespace OpenRusty

namespace ControlPlane

variable {γ ω : Type} {codec : Codec}

theorem applyDynamic_frame (s : ControlPlane γ ω) (cfg : GatewayConfig)
    : (s.applyDynamic cfg).registry = s.registry ∧ (s.applyDynamic cfg).runtime = s.runtime
      ∧ (s.applyDynamic cfg).reloadGate = s.reloadGate
      ∧ (s.applyDynamic cfg).staticConfig = s.staticConfig := by
  unfold applyDynamic
  split
  . exact ⟨rfl, rfl, rfl, rfl⟩
  . exact ⟨rfl, rfl, rfl, rfl⟩

def Resolves (loaded resolved : GatewayConfig) : Prop :=
  ∃ lookupHost, resolved = loaded.resolve lookupHost

namespace Reload

variable {s s' : ControlPlane γ ω} {r r' : Reload γ ω}

def preparing (r : Reload γ ω) : Bool :=
  match r with
  | .load => true
  | .resolve .. => true
  | .tls .. => true
  | _ => false

def abandoned (r : Reload γ ω) : Bool :=
  match r with
  | .done (.error _) => true
  | .dropped => true
  | _ => false

theorem preparing_cases (h : r.preparing = true)
    : r = .load ∨ (∃ file cfg, r = .resolve file cfg)
        ∨
      ∃ file loaded resolved, r = .tls file loaded resolved := by
  cases r with
  | load => exact .inl rfl
  | resolve file cfg => exact .inr (.inl ⟨file, cfg, rfl⟩)
  | tls file loaded resolved => exact .inr (.inr ⟨file, loaded, resolved, rfl⟩)
  | _ => cases h

theorem abandoned_cases (h : r.abandoned = true) : (∃ e, r = .done (.error e)) ∨ r = .dropped := by
  unfold abandoned at h
  split at h
  . next e => exact .inl ⟨e, rfl⟩
  . exact .inr rfl
  . cases h

inductive Moves (codec : Codec) (s : ControlPlane γ ω)
    : Reload γ ω → ControlPlane γ ω → Reload γ ω → Prop where
  | reject {cfg : Option GatewayConfig} (hgate : s.reloadGate = true)
    : Moves codec s (.start cfg) s (.done (.error .inFlight))
  | acquire {cfg : Option GatewayConfig} {r' : Reload γ ω} (hgate : s.reloadGate = false)
      (hr' : r'.preparing = true)
    : Moves codec s (.start cfg) { s with reloadGate := true } r'
  | prepare {r r' : Reload γ ω} (hr : r.preparing = true) (hr' : r'.preparing = true)
    : Moves codec s r s r'
  | call {file : Bool} {loaded resolved : GatewayConfig}
    : Moves codec s (.tls file loaded resolved) s
        (.plugins file loaded resolved (.start resolved.plugins))
  | abandon {r r' : Reload γ ω} (hr : r.preparing = true) (hr' : r'.abandoned = true)
    : Moves codec s r s.release r'
  | build {file : Bool} {loaded resolved : GatewayConfig} {c c' : PluginRegistry.ReloadCall γ ω}
      {x : PluginRegistry.ReloadInput γ ω} {registry : PluginRegistry γ ω}
      (hact : c.act s.registry x = some (registry, c')) (hc' : c'.succeeded = none)
    : Moves codec s (.plugins file loaded resolved c) { s with registry := registry }
        (.plugins file loaded resolved c')
  | giveUp {file : Bool} {loaded resolved : GatewayConfig} {c c' : PluginRegistry.ReloadCall γ ω}
      {x : PluginRegistry.ReloadInput γ ω} {registry : PluginRegistry γ ω} {r' : Reload γ ω}
      (hact : c.act s.registry x = some (registry, c')) (hc' : c'.succeeded = none)
      (hr' : r'.abandoned = true)
    : Moves codec s (.plugins file loaded resolved c)
        { s with registry := registry, reloadGate := false } r'
  | publishPlugins {file : Bool} {loaded resolved : GatewayConfig}
      {c : PluginRegistry.ReloadCall γ ω} {x : PluginRegistry.ReloadInput γ ω}
      {registry : PluginRegistry γ ω} {generation : Nat}
      (hact : c.act s.registry x = some (registry, .returned (.ok generation)))
    : Moves codec s (.plugins file loaded resolved c) { s with registry := registry }
        (.publish ⟨file, loaded, resolved, generation⟩ (.register resolved.upstreams))
  | register {job : Job} {uc : UpstreamConfig} {rest : List UpstreamConfig}
    : Moves codec s (.publish job (.register (uc :: rest)))
        { s with health := registerUpstream s.health uc } (.publish job (.register rest))
  | store {job : Job}
    : Moves codec s (.publish job (.register []))
        (s.storeRuntime job.resolved.toConfig job.generation (.reload job.loaded))
        (.publish job .dynamic)
  | dynamic {job : Job}
    : Moves codec s (.publish job .dynamic) (s.applyDynamic job.resolved) (.publish job .loadRoutes)
  | loadRoutes {job : Job}
    : Moves codec s (.publish job .loadRoutes) s
        (.publish job (.storeRoutes (s.reconciled codec job.resolved)))
  | storeRoutes {job : Job} {routes : DynamicRoutes}
    : Moves codec s (.publish job (.storeRoutes routes))
        { s with dynamicRoutes := s.dynamicRoutes.store routes }
        (.publish job (if job.file then .token else .report))
  | token {job : Job}
    : Moves codec s (.publish job .token)
        { s with adminToken := s.adminToken.store job.loaded.admin.effectiveToken }
        (.publish job .report)
  | report {job : Job} {report : ReloadReport}
    : Moves codec s (.publish job .report) s.release (.done (.ok report))

theorem moves_of_actPlugins {file : Bool} {loaded resolved : GatewayConfig}
    {c c' : PluginRegistry.ReloadCall γ ω} {x : PluginRegistry.ReloadInput γ ω}
    {registry : PluginRegistry γ ω} (hact : c.act s.registry x = some (registry, c'))
    : Moves codec s (.plugins file loaded resolved c) (actPlugins s file loaded resolved registry c').1
        (actPlugins s file loaded resolved registry c').2 := by
  unfold actPlugins
  split
  . apply Moves.publishPlugins hact
  . apply Moves.giveUp hact rfl rfl
  . apply Moves.giveUp hact rfl rfl
  . next hok herror hdropped =>
    apply Moves.build hact
    unfold PluginRegistry.ReloadCall.succeeded
    split
    . next generation => exact absurd rfl (hok generation)
    . rfl

theorem moves_of_actPublish (job : Job) (next : PublishStep)
    : Moves codec s (.publish job next) (actPublish codec s job next).1
        (actPublish codec s job next).2 := by
  cases next with
  | register rest =>
    cases rest with
    | nil => apply Moves.store
    | cons uc rest => apply Moves.register
  | dynamic => apply Moves.dynamic
  | loadRoutes => apply Moves.loadRoutes
  | storeRoutes routes => apply Moves.storeRoutes
  | token => apply Moves.token
  | report => apply Moves.report

theorem moves_of_act {x : Input γ ω} (h : r.act codec s x = some (s', r')) : Moves codec s r s' r' := by
  unfold act at h
  split at h
  . next cfg =>
    split at h
    . next hgate =>
      cases h
      apply Moves.reject hgate
    . next hgate =>
      cases h
      apply Moves.acquire
      . simpa using hgate
      . cases cfg with
        | none => rfl
        | some cfg => rfl
  . split at h
    . cases h
      exact .prepare rfl rfl
    . cases h
      apply Moves.abandon rfl rfl
  . cases h
    apply Moves.abandon rfl rfl
  . cases h
    apply Moves.abandon rfl rfl
  . next lookupHost =>
    cases h
    exact .prepare rfl rfl
  . cases h
    apply Moves.abandon rfl rfl
  . split at h
    . cases h
      apply Moves.call
    . cases h
      apply Moves.abandon rfl rfl
  . next file loaded resolved c y =>
    rw [Option.map_eq_some_iff] at h
    rcases h with ⟨⟨registry, c'⟩, hact, heq⟩
    have hmoves : Moves codec s (.plugins file loaded resolved c)
        (actPlugins s file loaded resolved registry c').1
        (actPlugins s file loaded resolved registry c').2 := by
      apply moves_of_actPlugins hact
    dsimp only at heq
    rw [heq] at hmoves
    assumption
  . next job next =>
    have hmoves : Moves codec s (.publish job next) _ _ := moves_of_actPublish job next
    rw [Option.some.inj h] at hmoves
    assumption
  . cases h

def committed (r : Reload γ ω) : Bool :=
  match r with
  | .publish .. => true
  | .done (.ok _) => true
  | _ => false

theorem not_committed_of_preparing (h : r.preparing = true) : r.committed = false := by
  rcases preparing_cases h with rfl | ⟨file, cfg, rfl⟩ | ⟨file, loaded, resolved, rfl⟩ <;> rfl

theorem not_committed_of_abandoned (h : r.abandoned = true) : r.committed = false := by
  rcases abandoned_cases h with ⟨e, rfl⟩ | rfl <;> rfl

theorem Moves.committed (h : Moves codec s r s' r') (hr : r.committed = true) : r'.committed = true := by
  cases h with
  | reject hgate => cases hr
  | acquire hgate hr' => cases hr
  | prepare hpreparing hr' => simp [not_committed_of_preparing hpreparing] at hr
  | call => cases hr
  | abandon hpreparing hr' => simp [not_committed_of_preparing hpreparing] at hr
  | build hact hc' => cases hr
  | giveUp hact hc' hr' => cases hr
  | publishPlugins hact => rfl
  | register => rfl
  | store => rfl
  | dynamic => rfl
  | loadRoutes => rfl
  | storeRoutes => rfl
  | token => rfl
  | report => rfl

end Reload

structure Unchanged (s s' : ControlPlane γ ω) : Prop where
  plugins : s'.registry.swap = s.registry.swap
  runtime : s'.runtime = s.runtime
  dynamic : s'.dynamic = s.dynamic
  dynamicRoutes : s'.dynamicRoutes = s.dynamicRoutes
  adminToken : s'.adminToken = s.adminToken
  health : s'.health = s.health

namespace Unchanged

theorem refl (s : ControlPlane γ ω) : Unchanged s s := by
  apply Unchanged.mk <;> rfl

theorem trans {s t u : ControlPlane γ ω} (hst : Unchanged s t) (htu : Unchanged t u)
    : Unchanged s u where
  plugins := by rw [htu.plugins, hst.plugins]
  runtime := by rw [htu.runtime, hst.runtime]
  dynamic := by rw [htu.dynamic, hst.dynamic]
  dynamicRoutes := by rw [htu.dynamicRoutes, hst.dynamicRoutes]
  adminToken := by rw [htu.adminToken, hst.adminToken]
  health := by rw [htu.health, hst.health]

end Unchanged

theorem Reload.Moves.unchanged {s s' : ControlPlane γ ω} {r r' : Reload γ ω}
    (h : Moves codec s r s' r')
    : r'.committed = true ∨ Unchanged s s' := by
  cases h with
  | reject hgate =>
    right
    apply Unchanged.refl
  | acquire hgate hr' =>
    right
    apply Unchanged.mk <;> rfl
  | prepare hr hr' =>
    right
    apply Unchanged.refl
  | call =>
    right
    apply Unchanged.refl
  | abandon hr hr' =>
    right
    apply Unchanged.mk <;> rfl
  | build hact hc' =>
    right
    have hswap := PluginRegistry.ReloadCall.swap_of_act hact hc'
    apply Unchanged.mk <;> try rfl
    exact hswap
  | giveUp hact hc' hr' =>
    right
    have hswap := PluginRegistry.ReloadCall.swap_of_act hact hc'
    apply Unchanged.mk <;> try rfl
    exact hswap
  | publishPlugins hact =>
    left
    rfl
  | register =>
    left
    rfl
  | store =>
    left
    rfl
  | dynamic =>
    left
    rfl
  | loadRoutes =>
    left
    rfl
  | storeRoutes =>
    left
    rfl
  | token =>
    left
    rfl
  | report =>
    left
    rfl

namespace Task

variable {s s' : ControlPlane γ ω} {t t' : Task γ ω}

def committed (t : Task γ ω) : Bool :=
  match t with
  | .reload r => r.committed
  | _ => true

theorem act_reload {r : Reload γ ω} {x : Input γ ω} (h : act codec s (.reload r) x = some (s', t'))
    : ∃ r', t' = .reload r' ∧ Reload.Moves codec s r s' r' := by
  rw [act, Option.map_eq_some_iff] at h
  rcases h with ⟨⟨s₁, r'⟩, hact, heq⟩
  cases heq
  exact ⟨r', rfl, Reload.moves_of_act hact⟩

theorem act_cases {x : Input γ ω} (h : t.act codec s x = some (s', t'))
    : (∃ r r', t = .reload r ∧ t' = .reload r' ∧ Reload.Moves codec s r s' r')
        ∨
      t'.committed = true := by
  cases t with
  | reload r =>
    rcases act_reload h with ⟨r', rfl, hmoves⟩
    left
    exact ⟨r, r', rfl, rfl, hmoves⟩
  | apply a =>
    rcases Option.map_eq_some_iff.mp h with ⟨y, -, heq⟩
    cases heq
    right
    rfl
  | request q =>
    rcases Option.map_eq_some_iff.mp h with ⟨y, -, heq⟩
    cases heq
    right
    rfl

theorem committed_of_act {x : Input γ ω} (ht : t.committed = true)
    (h : t.act codec s x = some (s', t'))
    : t'.committed = true := by
  rcases act_cases h with ⟨r, r', rfl, rfl, hmoves⟩ | hcommitted
  . apply hmoves.committed ht
  . assumption

theorem unchanged_of_act {x : Input γ ω} (h : t.act codec s x = some (s', t'))
    : t'.committed = true ∨ Unchanged s s' := by
  rcases act_cases h with ⟨r, r', rfl, rfl, hmoves⟩ | hcommitted
  . apply hmoves.unchanged
  . left
    assumption

end Task

theorem failed_reload_unchanged {p q : Tasks γ ω} {es : List (Pool.Event Arrival (Input γ ω))}
    (hrun : Machine.run (step codec) p es = some q) {i : Nat} {r : Reload γ ω}
    (hi : q.threads[i]? = some (.reload r)) (hfailed : r.abandoned = true)
    : Machine.Along (step codec) (fun p e q => ∀ x, e = .step i x → Unchanged p.shared q.shared) p es
      ∧ ((∀ e ∈ es, ∃ x, e = .step i x) → Unchanged p.shared q.shared) := by
  have halong : Machine.Along (step codec)
      (fun p e q => ∀ x, e = .step i x → Unchanged p.shared q.shared) p es := by
    apply Pool.along_of_not_committed (C := fun t => t.committed = true) _ _ hrun hi
    . simp [Task.committed, Reload.not_committed_of_abandoned hfailed]
    . intro s t x s' t' ht hact
      apply Task.committed_of_act ht hact
    . intro s t x s' t' hact
      apply Task.unchanged_of_act hact
  refine ⟨halong, ?_⟩
  intro halone
  apply halong.related (R := fun p q => Unchanged p.shared q.shared) _ _ _ hrun
  . intro p
    apply Unchanged.refl
  . intro p q r hpq hqr
    apply hpq.trans hqr
  . intro e he p q hkept
    rcases halone e he with ⟨x, hx⟩
    apply hkept x hx

def bootConfig : GatewayConfig where
  server := { listen := { ip := .v4 0x7f000001, port := 8080 } }
  admin := { token := some "boot" }

def plainCodec : Codec where
  decode _ := .error "Invalid padding"
  debug text := text

def noPlugins : PluginRegistry Unit Unit := { swap := .new { generation := 0, plugins := [] }, states := [] }

def unreadableDir : PluginRegistry.BuildEnv Unit Unit where
  entries := .error "No such file or directory"
  read _ := .error "No such file or directory"
  compile _ := .error "no module"
  validateModule _ := .ok true
  instantiatePre _ := .ok ()

def rotatedFile : LoadEnv where
  lookupHost _ := none
  debug text := text
  raw := .ok "[admin]"
  parse _ := .ok { bootConfig with admin := { token := some "rotated" } }
  dynamicDir := none

def failedReload : List (Pool.Event Arrival (Input Unit Unit)) :=
  [.step 0 .run, .step 0 (.loaded rotatedFile), .step 0 (.lookup fun _ => none),
    .step 0 (.tls fun _ => .ok ()), .step 0 (.plugins .run), .step 0 (.plugins (.built unreadableDir))]

def calling : Tasks Unit Unit :=
  { shared := .fromConfig plainCodec bootConfig noPlugins, threads := [.reload (.start none)] }

def outcome? (q : Tasks Unit Unit) (i : Nat) : Option (Except ReloadError ReloadReport) :=
  q.threads[i]?.bind fun t =>
    match t with
    | .reload (.done result) => some result
    | _ => none

theorem outcome?_eq_some {q : Tasks Unit Unit} {i : Nat} {result : Except ReloadError ReloadReport}
    (h : outcome? q i = some result)
    : q.threads[i]? = some (.reload (.done result)) := by
  rcases Option.bind_eq_some_iff.mp h with ⟨t, ht, hresult⟩
  split at hresult
  . cases hresult
    assumption
  . cases hresult

theorem failedReload_unchanged
    : ∃ q, Machine.run (step plainCodec) calling failedReload = some q
      ∧ outcome? q 0 = some (.error (.failed "plugins: io error: No such file or directory"))
      ∧ Unchanged calling.shared q.shared := by
  have hrun : ((Machine.run (step plainCodec) calling failedReload).map fun q => outcome? q 0)
      = some (some (.error (.failed "plugins: io error: No such file or directory"))) := by
    decide +kernel
  rcases Option.map_eq_some_iff.mp hrun with ⟨q, hq, hresult⟩
  refine ⟨q, hq, hresult, ?_⟩
  apply (failed_reload_unchanged hq (outcome?_eq_some hresult) rfl).2
  simp [failedReload]

end ControlPlane

end OpenRusty
