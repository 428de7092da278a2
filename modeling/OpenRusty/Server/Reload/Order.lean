import OpenRusty.Server.Reload.Lemmas

/-!
This module contains the order that the reload gate brings into the publications: one reload at a time is
past the gate, so the plugins that a reload has published are the current ones until its runtime is
published too.
-/

namespace OpenRusty

namespace ControlPlane

variable {γ ω : Type} {codec : Codec}

namespace Reload

variable {s s' : ControlPlane γ ω} {r r' : Reload γ ω}

def holds (r : Reload γ ω) : Bool :=
  match r with
  | .start _ => false
  | .done _ => false
  | .dropped => false
  | _ => true

theorem holds_of_preparing (h : r.preparing = true) : r.holds = true := by
  rcases preparing_cases h with rfl | ⟨file, cfg, rfl⟩ | ⟨file, loaded, resolved, rfl⟩ <;> rfl

theorem not_holds_of_abandoned (h : r.abandoned = true) : r.holds = false := by
  rcases abandoned_cases h with ⟨e, rfl⟩ | rfl <;> rfl

theorem Moves.gate (h : Moves codec s r s' r')
    : r'.holds = r.holds ∧ s'.reloadGate = s.reloadGate
      ∨ r.holds = false ∧ s.reloadGate = false ∧ r'.holds = true ∧ s'.reloadGate = true
      ∨ r.holds = true ∧ r'.holds = false ∧ s'.reloadGate = false := by
  cases h with
  | reject hgate => exact .inl ⟨rfl, rfl⟩
  | acquire hgate hr' => exact .inr (.inl ⟨rfl, hgate, holds_of_preparing hr', rfl⟩)
  | prepare hr hr' =>
    left
    rw [holds_of_preparing hr, holds_of_preparing hr']
    exact ⟨rfl, rfl⟩
  | call => exact .inl ⟨rfl, rfl⟩
  | abandon hr hr' =>
    exact .inr (.inr ⟨holds_of_preparing hr, not_holds_of_abandoned hr', rfl⟩)
  | build hact hc' => exact .inl ⟨rfl, rfl⟩
  | giveUp hact hc' hr' => exact .inr (.inr ⟨rfl, not_holds_of_abandoned hr', rfl⟩)
  | publishPlugins hact => exact .inl ⟨rfl, rfl⟩
  | register => exact .inl ⟨rfl, rfl⟩
  | store => exact .inl ⟨rfl, rfl⟩
  | @dynamic job =>
    have hframe := s.applyDynamic_frame job.resolved
    exact .inl ⟨rfl, hframe.2.2.1⟩
  | loadRoutes => exact .inl ⟨rfl, rfl⟩
  | storeRoutes => exact .inl ⟨rfl, rfl⟩
  | token => exact .inl ⟨rfl, rfl⟩
  | report => exact .inr (.inr ⟨rfl, rfl, rfl⟩)

end Reload

namespace Apply

variable {s s' : ControlPlane γ ω} {a a' : Apply}

inductive Moves (codec : Codec) (s : ControlPlane γ ω) : Apply → ControlPlane γ ω → Apply → Prop where
  | refuse {pair : IngressPair} : Moves codec s (.start pair) s (.done none)
  | compose {pair : IngressPair} {cfg : GatewayConfig}
      (hcompose : s.staticConfig.composePair codec.decode pair = some cfg)
    : Moves codec s (.start pair) { s with applying := true } (.resolve pair cfg)
  | resolve {pair : IngressPair} {cfg : GatewayConfig}
      {lookupHost : String → Option (List SocketAddr)}
    : Moves codec s (.resolve pair cfg) s (.tls pair (cfg.resolve lookupHost))
  | tls {pair : IngressPair} {cfg : GatewayConfig}
    : Moves codec s (.tls pair cfg) s (.readGeneration pair cfg)
  | giveUp {pair : IngressPair} {cfg : GatewayConfig}
    : Moves codec s (.tls pair cfg) { s with applying := false } (.done none)
  | readGeneration {pair : IngressPair} {cfg : GatewayConfig}
    : Moves codec s (.readGeneration pair cfg) s (.register pair cfg s.generation cfg.upstreams)
  | register {pair : IngressPair} {cfg : GatewayConfig} {generation : Nat} {uc : UpstreamConfig}
      {rest : List UpstreamConfig}
    : Moves codec s (.register pair cfg generation (uc :: rest))
        { s with health := registerUpstream s.health uc } (.register pair cfg generation rest)
  | store {pair : IngressPair} {cfg : GatewayConfig} {generation : Nat}
    : Moves codec s (.register pair cfg generation [])
        { s.storeRuntime cfg.toConfig generation (.apply pair) with applying := false }
        (.done (some pair))

theorem moves_of_act {x : Input γ ω} (h : a.act codec s x = some (s', a')) : Moves codec s a s' a' := by
  unfold act at h
  split at h
  . split at h
    . cases h
    . split at h
      . cases h
        apply Moves.refuse
      . next hcompose =>
        cases h
        apply Moves.compose hcompose
  . cases h
    apply Moves.resolve
  . split at h
    . cases h
      apply Moves.tls
    . cases h
      apply Moves.giveUp
  . cases h
    apply Moves.readGeneration
  . cases h
    apply Moves.register
  . cases h
    apply Moves.store
  . cases h

theorem Moves.frame (h : Moves codec s a s' a')
    : s'.registry = s.registry ∧ s'.reloadGate = s.reloadGate ∧ s'.staticConfig = s.staticConfig := by
  cases h <;> exact ⟨rfl, rfl, rfl⟩

end Apply

namespace Task

variable {s s' : ControlPlane γ ω} {t t' : Task γ ω}

def holds (t : Task γ ω) : Bool :=
  match t with
  | .reload r => r.holds
  | _ => false

theorem act_apply {a : Apply} {x : Input γ ω} (h : act codec s (.apply a) x = some (s', t'))
    : ∃ a', t' = .apply a' ∧ Apply.Moves codec s a s' a' := by
  rw [act, Option.map_eq_some_iff] at h
  rcases h with ⟨⟨s₁, a'⟩, hact, heq⟩
  cases heq
  exact ⟨a', rfl, Apply.moves_of_act hact⟩

theorem act_request {q : Pinning γ ω} {x : Input γ ω} (h : act codec s (.request q) x = some (s', t'))
    : s' = s
      ∧ (q = .start ∧ t' = .request (.plugins s.registry.swap.current)
        ∨ ∃ snap, q = .plugins snap ∧ t' = .request (.pinned snap s.runtime.current.runtime)) := by
  rw [act, Option.map_eq_some_iff] at h
  rcases h with ⟨⟨s₁, q'⟩, hact, heq⟩
  cases heq
  unfold Pinning.act at hact
  split at hact
  . cases hact
    exact ⟨rfl, .inl ⟨rfl, rfl⟩⟩
  . next snap =>
    cases hact
    exact ⟨rfl, .inr ⟨snap, rfl, rfl⟩⟩
  . cases hact

theorem gate_of_act {x : Input γ ω} (h : t.act codec s x = some (s', t'))
    : t'.holds = t.holds ∧ s'.reloadGate = s.reloadGate
      ∨ t.holds = false ∧ s.reloadGate = false ∧ t'.holds = true ∧ s'.reloadGate = true
      ∨ t.holds = true ∧ t'.holds = false ∧ s'.reloadGate = false := by
  cases t with
  | reload r =>
    rcases act_reload h with ⟨r', rfl, hmoves⟩
    apply hmoves.gate
  | apply a =>
    rcases act_apply h with ⟨a', rfl, hmoves⟩
    left
    exact ⟨rfl, hmoves.frame.2.1⟩
  | request q =>
    rcases act_request h with ⟨rfl, ⟨-, rfl⟩ | ⟨snap, -, rfl⟩⟩
    . exact .inl ⟨rfl, rfl⟩
    . exact .inl ⟨rfl, rfl⟩

def published? (t : Task γ ω) : Option Nat :=
  match t with
  | .reload (.publish job _) => some job.generation
  | _ => none

def pending? (t : Task γ ω) : Option Nat :=
  match t with
  | .reload (.publish job (.register _)) => some job.generation
  | _ => none

def storing? (t : Task γ ω) : Option Nat :=
  match t with
  | .reload (.publish job (.register [])) => some job.generation
  | .apply (.register _ _ generation []) => some generation
  | _ => none

def waiting? (t : Task γ ω) : Option Nat :=
  match t with
  | .request (.plugins snap) => some snap.generation
  | _ => none

def pinned? (t : Task γ ω) : Option (Nat × Nat) :=
  match t with
  | .request (.pinned snap rt) => some (snap.generation, rt.generation)
  | _ => none

def Prepared (swap : ArcSwap (PluginSnapshot γ ω)) (t : Task γ ω) : Prop :=
  match t with
  | .reload (.plugins _ _ _ call) => call.Prepared swap
  | _ => True

inductive Effect (s : ControlPlane γ ω) (t : Task γ ω) (s' : ControlPlane γ ω) (t' : Task γ ω)
    : Prop where
  | quiet (hswap : s'.registry.swap = s.registry.swap) (hruntime : s'.runtime = s.runtime)
      (hpublished : t'.published? = t.published? ∨ t'.published? = none)
      (hpending : t'.pending? = t.pending?) (hwaiting : t'.waiting? = t.waiting?)
      (hpinned : t'.pinned? = t.pinned?)
  | publish (snap : PluginSnapshot γ ω) (hswap : s'.registry.swap = s.registry.swap.store snap)
      (hfollows : t.Prepared s.registry.swap → PluginRegistry.Follows s.registry.swap.current snap)
      (hruntime : s'.runtime = s.runtime) (hholds : t.holds = true) (hfirst : t.published? = none)
      (hpublished : t'.published? = some snap.generation)
      (hpending : t'.pending? = some snap.generation) (hwaiting : t'.waiting? = none)
      (hpinned : t'.pinned? = none)
  | store (pub : Publication) (hswap : s'.registry.swap = s.registry.swap)
      (hruntime : s'.runtime = s.runtime.store pub)
      (hstoring : t.storing? = some pub.runtime.generation)
      (hpublished : t'.published? = t.published?) (hpending : t'.pending? = none)
      (hwaiting : t'.waiting? = none) (hpinned : t'.pinned? = none)
  | pinPlugins (hs : s' = s) (hpublished : t'.published? = none) (hpending : t'.pending? = none)
      (hfirst : t.pending? = none) (hwaiting : t'.waiting? = some s.generation)
      (hpinned : t'.pinned? = none)
  | pinRuntime (generation : Nat) (hs : s' = s) (hfirst : t.waiting? = some generation)
      (hpublished : t'.published? = none) (hpending : t'.pending? = none) (hno : t.pending? = none)
      (hwaiting : t'.waiting? = none)
      (hpinned : t'.pinned? = some (generation, s.runtime.current.runtime.generation))

theorem holds_of_published {g : Nat} (h : t.published? = some g) : t.holds = true := by
  unfold published? at h
  split at h
  . rfl
  . cases h

theorem quiet_of_preparing {r : Reload γ ω} (h : r.preparing = true)
    : published? (.reload r) = none ∧ pending? (.reload r) = none := by
  rcases Reload.preparing_cases h with rfl | ⟨file, cfg, rfl⟩ | ⟨file, loaded, resolved, rfl⟩
  all_goals exact ⟨rfl, rfl⟩

theorem quiet_of_abandoned {r : Reload γ ω} (h : r.abandoned = true)
    : published? (.reload r) = none ∧ pending? (.reload r) = none := by
  rcases Reload.abandoned_cases h with ⟨e, rfl⟩ | rfl <;> exact ⟨rfl, rfl⟩

theorem effect_of_reload {r r' : Reload γ ω} (h : Reload.Moves codec s r s' r')
    : Effect s (.reload r) s' (.reload r') := by
  cases h with
  | reject hgate => exact .quiet rfl rfl (.inl rfl) rfl rfl rfl
  | acquire hgate hr' =>
    have hquiet := quiet_of_preparing hr'
    exact .quiet rfl rfl (.inr hquiet.1) hquiet.2 rfl rfl
  | prepare hr hr' =>
    have hquiet := quiet_of_preparing hr
    have hquiet' := quiet_of_preparing hr'
    exact .quiet rfl rfl (.inr hquiet'.1) (by rw [hquiet.2, hquiet'.2]) rfl rfl
  | call => exact .quiet rfl rfl (.inl rfl) rfl rfl rfl
  | abandon hr hr' =>
    have hquiet := quiet_of_preparing hr
    have hquiet' := quiet_of_abandoned hr'
    exact .quiet rfl rfl (.inr hquiet'.1) (by rw [hquiet.2, hquiet'.2]) rfl rfl
  | build hact hc' =>
    exact .quiet (PluginRegistry.ReloadCall.swap_of_act hact hc') rfl (.inr rfl) rfl rfl rfl
  | giveUp hact hc' hr' =>
    have hquiet' := quiet_of_abandoned hr'
    exact .quiet (PluginRegistry.ReloadCall.swap_of_act hact hc') rfl (.inr hquiet'.1) hquiet'.2
      rfl rfl
  | publishPlugins hact =>
    rcases PluginRegistry.ReloadCall.act_cases hact with ⟨-, -, ⟨-, hnone, -⟩ | hcases⟩
    . cases hnone
    . rcases hcases with ⟨cfg, attempts, snap, rfl, hswap, heq⟩
      cases heq
      refine .publish snap hswap ?_ rfl rfl rfl rfl rfl rfl rfl
      intro hprepared
      apply PluginRegistry.ReloadCall.follows_of_prepared cfg attempts hprepared
  | register => exact .quiet rfl rfl (.inl rfl) rfl rfl rfl
  | store => exact .store _ rfl rfl rfl rfl rfl rfl rfl
  | @dynamic job =>
    have hframe := s.applyDynamic_frame job.resolved
    exact .quiet (by rw [hframe.1]) hframe.2.1 (.inl rfl) rfl rfl rfl
  | loadRoutes => exact .quiet rfl rfl (.inl rfl) rfl rfl rfl
  | @storeRoutes job routes =>
    split
    . exact .quiet rfl rfl (.inl rfl) rfl rfl rfl
    . exact .quiet rfl rfl (.inl rfl) rfl rfl rfl
  | token => exact .quiet rfl rfl (.inl rfl) rfl rfl rfl
  | report => exact .quiet rfl rfl (.inr rfl) rfl rfl rfl

theorem effect_of_apply {a a' : Apply} (h : Apply.Moves codec s a s' a')
    : Effect s (.apply a) s' (.apply a') := by
  cases h with
  | store => exact .store _ rfl rfl rfl rfl rfl rfl rfl
  | _ => exact .quiet rfl rfl (.inl rfl) rfl rfl rfl

theorem effect_of_act {x : Input γ ω} (h : t.act codec s x = some (s', t')) : Effect s t s' t' := by
  cases t with
  | reload r =>
    rcases act_reload h with ⟨r', rfl, hmoves⟩
    apply effect_of_reload hmoves
  | apply a =>
    rcases act_apply h with ⟨a', rfl, hmoves⟩
    apply effect_of_apply hmoves
  | request q =>
    rcases act_request h with ⟨rfl, ⟨rfl, rfl⟩ | ⟨snap, rfl, rfl⟩⟩
    . exact .pinPlugins rfl rfl rfl rfl rfl rfl
    . exact .pinRuntime snap.generation rfl rfl rfl rfl rfl rfl rfl

end Task

def holders (p : Tasks γ ω) : Nat := p.sum fun t => if t.holds then 1 else 0

structure Exclusive (p : Tasks γ ω) : Prop where
  gate : holders p = if p.shared.reloadGate then 1 else 0
  current : ∀ (i : Nat) t, p.threads[i]? = some t →
    ∀ g, t.published? = some g → g = p.shared.generation

namespace Exclusive

variable {p q : Tasks γ ω}

theorem eq_of_holds (h : Exclusive p) {i j : Nat} {t u : Task γ ω} (hi : p.threads[i]? = some t)
    (hj : p.threads[j]? = some u) (ht : t.holds = true) (hu : u.holds = true)
    : j = i := by
  by_contra hne
  have hle := Pool.add_le_sum (fun t : Task γ ω => if t.holds then 1 else 0) p hi hj hne
  have hgate := h.gate
  unfold holders at hgate
  simp only [ht, hu, if_true] at hle
  split at hgate
  . omega
  . omega

theorem gate_step (h : Exclusive p) {i : Nat} {t t' : Task γ ω} {s : ControlPlane γ ω} {x : Input γ ω}
    (hi : p.threads[i]? = some t) (hact : t.act codec p.shared x = some (s, t'))
    : holders { shared := s, threads := p.threads.set i t' } = if s.reloadGate then 1 else 0 := by
  have hsum := Pool.sum_set (fun t : Task γ ω => if t.holds then 1 else 0) p hi s t'
  have hgate := h.gate
  unfold holders at *
  rcases Task.gate_of_act hact with ⟨hholds, hs⟩ | ⟨ht, hp, ht', hs⟩ | ⟨ht, ht', hs⟩
  . rw [hholds] at hsum
    rw [hs]
    omega
  . simp only [ht, ht', hp, hs, Bool.false_eq_true, if_false, if_true] at *
    omega
  . have hle := Pool.le_sum (fun t : Task γ ω => if t.holds then 1 else 0) p hi
    simp only [ht, ht', hs, Bool.false_eq_true, if_false, if_true] at *
    split at hgate
    . omega
    . omega

theorem current_step (h : Exclusive p) {i : Nat} {t t' : Task γ ω} {s : ControlPlane γ ω}
    (hi : p.threads[i]? = some t) (heffect : Task.Effect p.shared t s t')
    : ∀ (j : Nat) u, (p.threads.set i t')[j]? = some u →
      ∀ g, u.published? = some g → g = s.generation := by
  -- The others only see the generation change while nothing of theirs is published.
  have hothers (hsame : s.generation = p.shared.generation)
      : ∀ (j : Nat) u, j ≠ i → p.threads[j]? = some u → ∀ g, u.published? = some g →
        g = s.generation := by
    intro j u _ hj g hg
    rw [hsame]
    apply h.current j u hj g hg
  cases heffect with
  | quiet hswap hruntime hpublished hpending hwaiting hpinned =>
    have hsame : s.generation = p.shared.generation := by
      unfold generation
      rw [hswap]
    apply Pool.forall_set _ (hothers hsame)
    intro g hg
    rw [hsame]
    rcases hpublished with hpublished | hpublished
    . rw [hpublished] at hg
      apply h.current i t hi g hg
    . rw [hpublished] at hg
      cases hg
  | publish snap hswap hfollows hruntime hholds hfirst hpublished hpending hwaiting hpinned =>
    apply Pool.forall_set
    . intro g hg
      rw [hpublished] at hg
      cases hg
      unfold generation
      rw [hswap, ArcSwap.current_store]
    . intro j u hne hj g hg
      exfalso
      apply hne
      apply h.eq_of_holds hi hj hholds (Task.holds_of_published hg)
  | store pub hswap hruntime hstoring hpublished hpending hwaiting hpinned =>
    have hsame : s.generation = p.shared.generation := by
      unfold generation
      rw [hswap]
    apply Pool.forall_set _ (hothers hsame)
    intro g hg
    rw [hsame]
    rw [hpublished] at hg
    apply h.current i t hi g hg
  | pinPlugins hs hpublished hpending hfirst hwaiting hpinned =>
    subst hs
    apply Pool.forall_set _ (hothers rfl)
    simp [hpublished]
  | pinRuntime generation hs hfirst hpublished hpending hno hwaiting hpinned =>
    subst hs
    apply Pool.forall_set _ (hothers rfl)
    simp [hpublished]

theorem step {e : Pool.Event Arrival (Input γ ω)} (h : Exclusive p)
    (hstep : ControlPlane.step codec p e = some q)
    : Exclusive q := by
  rcases Pool.step_cases _ _ hstep with ⟨o, rfl, rfl⟩ | ⟨i, x, t, s, t', rfl, hi, hact, rfl⟩
  . have hstart : (Task.start o : Task γ ω).holds = false ∧ (Task.start o : Task γ ω).published? = none := by
      cases o <;> exact ⟨rfl, rfl⟩
    apply Exclusive.mk
    . unfold holders
      rw [Pool.sum_spawn, hstart.1]
      apply h.gate
    . apply Pool.forall_concat _ h.current
      simp [hstart.2]
  . apply Exclusive.mk
    . apply h.gate_step hi hact
    . apply h.current_step hi (Task.effect_of_act hact)

end Exclusive

end ControlPlane

end OpenRusty
