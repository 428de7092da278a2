import OpenRusty.Server.Reload.Order

/-!
This module contains the proof of when the plugins and the runtime that a request pins belong together.
The two are pinned one after the other, and a reload publishes them one after the other, so all depends
on what comes between.
-/

namespace OpenRusty

namespace ControlPlane

variable {γ ω : Type} {codec : Codec}

def runtimeGeneration (s : ControlPlane γ ω) : Nat := s.runtime.current.runtime.generation

/--
No request pins its runtime while the reload that published its plugins is still to store one, and what
is stored is for the current plugins and for those of every request that is about to pin.
-/
def KeepsTogether (p : Tasks γ ω) (e : Pool.Event Arrival (Input γ ω)) : Prop :=
  match e with
  | .spawn _ => True
  | .step i _ => ∀ t ∈ p.threads[i]?,
    (∀ g ∈ t.waiting?, ∀ u ∈ p.threads, u.pending? ≠ some g)
      ∧ ∀ g ∈ t.storing?, g = p.shared.generation
        ∧ ∀ u ∈ p.threads, ∀ g' ∈ u.waiting?, g' = g

instance (p : Tasks γ ω) (e : Pool.Event Arrival (Input γ ω)) : Decidable (KeepsTogether p e) :=
  match e with
  | .spawn _ => isTrue trivial
  | .step i _ => inferInstanceAs (Decidable (∀ t ∈ p.threads[i]?, _))

theorem Task.published_of_pending {t : Task γ ω} {g : Nat} (h : t.pending? = some g)
    : t.published? = some g := by
  unfold pending? at h
  split at h
  . cases h
    rfl
  . cases h

structure Together (p : Tasks γ ω) : Prop extends Exclusive p where
  pending : p.shared.runtimeGeneration = p.shared.generation
    ∨ ∃ (i : Nat) (t : Task γ ω), p.threads[i]? = some t ∧ t.pending? = some p.shared.generation
  waiting : ∀ (i : Nat) t, p.threads[i]? = some t → ∀ g, t.waiting? = some g →
    g = p.shared.runtimeGeneration ∨ g = p.shared.generation
  pinned : ∀ (i : Nat) t, p.threads[i]? = some t → ∀ g g', t.pinned? = some (g, g') → g' = g

namespace Together

variable {p q : Tasks γ ω} {i : Nat} {t t' : Task γ ω} {s : ControlPlane γ ω}

theorem runtime_of_holds (h : Together p) (hi : p.threads[i]? = some t) (hholds : t.holds = true)
    (hfirst : t.published? = none)
    : p.shared.runtimeGeneration = p.shared.generation := by
  rcases h.pending with hpending | ⟨j, u, hj, hu⟩
  . assumption
  . exfalso
    have hpublished := Task.published_of_pending hu
    have heq := h.eq_of_holds hi hj hholds (Task.holds_of_published hpublished)
    subst heq
    rw [hi] at hj
    cases hj
    rw [hfirst] at hpublished
    cases hpublished

theorem pending_set (h : Together p) (hi : p.threads[i]? = some t) (hsame : t'.pending? = t.pending?)
    (hgeneration : s.generation = p.shared.generation)
    (hruntime : s.runtimeGeneration = p.shared.runtimeGeneration)
    : s.runtimeGeneration = s.generation
      ∨ ∃ (j : Nat) (u : Task γ ω), (p.threads.set i t')[j]? = some u
        ∧ u.pending? = some s.generation := by
  rw [hgeneration, hruntime]
  rcases h.pending with hpending | ⟨j, u, hj, hu⟩
  . left
    assumption
  . right
    by_cases hij : i = j
    . subst hij
      rw [hi] at hj
      cases hj
      have hlt := (List.getElem?_eq_some_iff.mp hi).1
      exact ⟨i, t', by simp [hlt], by rw [hsame, hu]⟩
    . refine ⟨j, u, ?_, hu⟩
      rw [List.getElem?_set_ne hij]
      assumption

theorem pending_act (h : Together p) (hi : p.threads[i]? = some t)
    (hok : ∀ g ∈ t.storing?, g = p.shared.generation) (heffect : Task.Effect p.shared t s t')
    : s.runtimeGeneration = s.generation
      ∨ ∃ (j : Nat) (u : Task γ ω), (p.threads.set i t')[j]? = some u
        ∧ u.pending? = some s.generation := by
  cases heffect with
  | quiet hswap hruntime hpublished hpending hwaiting hpinned =>
    apply h.pending_set hi hpending
    . unfold generation
      rw [hswap]
    . unfold runtimeGeneration
      rw [hruntime]
  | publish snap hswap hfollows hruntime hholds hfirst hpublished hpending hwaiting hpinned =>
    right
    have hlt := (List.getElem?_eq_some_iff.mp hi).1
    refine ⟨i, t', by simp [hlt], ?_⟩
    unfold generation
    rw [hpending, hswap, ArcSwap.current_store]
  | store pub hswap hruntime hstoring hpublished hpending hwaiting hpinned =>
    left
    unfold runtimeGeneration generation
    rw [hswap, hruntime, ArcSwap.current_store]
    apply hok _ hstoring
  | pinPlugins hs hpublished hpending hfirst hwaiting hpinned =>
    subst hs
    apply h.pending_set hi _ rfl rfl
    rw [hpending, hfirst]
  | pinRuntime generation hs hfirst hpublished hpending hno hwaiting hpinned =>
    subst hs
    apply h.pending_set hi _ rfl rfl
    rw [hpending, hno]

theorem waiting_act (h : Together p) (hi : p.threads[i]? = some t)
    (hok : ∀ g ∈ t.storing?, g = p.shared.generation ∧ ∀ u ∈ p.threads, ∀ g' ∈ u.waiting?, g' = g)
    (heffect : Task.Effect p.shared t s t')
    : ∀ (j : Nat) u, (p.threads.set i t')[j]? = some u → ∀ g, u.waiting? = some g →
      g = s.runtimeGeneration ∨ g = s.generation := by
  cases heffect with
  | quiet hswap hruntime hpublished hpending hwaiting hpinned =>
    unfold runtimeGeneration generation
    rw [hswap, hruntime]
    apply Pool.forall_set
    . rw [hwaiting]
      apply h.waiting i t hi
    . intro j u _ hj
      apply h.waiting j u hj
  | publish snap hswap hfollows hruntime hholds hfirst hpublished hpending hwaiting hpinned =>
    have hsame := h.runtime_of_holds hi hholds hfirst
    apply Pool.forall_set
    . simp [hwaiting]
    . intro j u _ hj g hg
      left
      unfold runtimeGeneration
      rw [hruntime]
      rcases h.waiting j u hj g hg with heq | heq
      . exact heq
      . rw [heq, ← hsame]
        rfl
  | store pub hswap hruntime hstoring hpublished hpending hwaiting hpinned =>
    apply Pool.forall_set
    . simp [hwaiting]
    . intro j u _ hj g hg
      left
      unfold runtimeGeneration
      rw [hruntime, ArcSwap.current_store]
      apply (hok _ hstoring).2 u (List.mem_of_getElem? hj) g hg
  | pinPlugins hs hpublished hpending hfirst hwaiting hpinned =>
    subst hs
    apply Pool.forall_set
    . intro g hg
      rw [hwaiting] at hg
      cases hg
      right
      rfl
    . intro j u _ hj
      apply h.waiting j u hj
  | pinRuntime generation hs hfirst hpublished hpending hno hwaiting hpinned =>
    subst hs
    apply Pool.forall_set
    . simp [hwaiting]
    . intro j u _ hj
      apply h.waiting j u hj

theorem pinned_act (h : Together p) (hi : p.threads[i]? = some t)
    (hok : ∀ g ∈ t.waiting?, ∀ u ∈ p.threads, u.pending? ≠ some g)
    (heffect : Task.Effect p.shared t s t')
    : ∀ (j : Nat) u, (p.threads.set i t')[j]? = some u → ∀ g g', u.pinned? = some (g, g') → g' = g := by
  have hothers : ∀ (j : Nat) u, j ≠ i → p.threads[j]? = some u → ∀ g g', u.pinned? = some (g, g') →
      g' = g := by
    intro j u _ hj
    apply h.pinned j u hj
  apply Pool.forall_set _ hothers
  cases heffect with
  | quiet hswap hruntime hpublished hpending hwaiting hpinned =>
    rw [hpinned]
    apply h.pinned i t hi
  | publish snap hswap hfollows hruntime hholds hfirst hpublished hpending hwaiting hpinned =>
    simp [hpinned]
  | store pub hswap hruntime hstoring hpublished hpending hwaiting hpinned => simp [hpinned]
  | pinPlugins hs hpublished hpending hfirst hwaiting hpinned => simp [hpinned]
  | pinRuntime generation hs hfirst hpublished hpending hno hwaiting hpinned =>
    intro g g' hg
    rw [hpinned] at hg
    cases hg
    rcases h.waiting i t hi _ hfirst with heq | heq
    . exact heq.symm
    . rcases h.pending with hsame | ⟨j, u, hj, hu⟩
      . rw [heq]
        exact hsame
      . exfalso
        apply hok _ hfirst u (List.mem_of_getElem? hj)
        rw [hu, heq]

theorem step {e : Pool.Event Arrival (Input γ ω)} (h : Together p) (hok : KeepsTogether p e)
    (hstep : ControlPlane.step codec p e = some q)
    : Together q := by
  have hexclusive := h.toExclusive.step hstep
  rcases Pool.step_cases _ _ hstep with ⟨o, rfl, rfl⟩ | ⟨i, x, t, s, t', rfl, hi, hact, rfl⟩
  . have hstart : (Task.start o : Task γ ω).waiting? = none ∧ (Task.start o : Task γ ω).pinned? = none := by
      cases o <;> exact ⟨rfl, rfl⟩
    refine ⟨hexclusive, ?_, ?_, ?_⟩
    . rcases h.pending with hsame | ⟨i, t, hi, ht⟩
      . left
        assumption
      . right
        have hlt := (List.getElem?_eq_some_iff.mp hi).1
        exact ⟨i, t, by rw [List.getElem?_append_left hlt, hi], ht⟩
    . apply Pool.forall_concat _ h.waiting
      simp [hstart.1]
    . apply Pool.forall_concat _ h.pinned
      simp [hstart.2]
  . have heffect := Task.effect_of_act hact
    have hok := hok t hi
    refine ⟨hexclusive, ?_, ?_, ?_⟩
    . apply h.pending_act hi _ heffect
      intro g hg
      apply (hok.2 g hg).1
    . apply h.waiting_act hi hok.2 heffect
    . apply h.pinned_act hi hok.1 heffect

end Together

theorem pinned_together_of_keepsTogether {cfg : GatewayConfig} {registry : PluginRegistry γ ω}
    {es : List (Pool.Event Arrival (Input γ ω))} {p : Tasks γ ω}
    (hok : Machine.Guarded (step codec) KeepsTogether (boot codec cfg registry) es)
    (hrun : Machine.run (step codec) (boot codec cfg registry) es = some p)
    : ∀ (i : Nat) snap rt, p.threads[i]? = some (.request (.pinned snap rt)) →
      rt.generation = snap.generation := by
  have htogether : Together p := by
    apply Machine.inv_of_run (I := Together) _ _ hok hrun
    . intro p e q h hok hstep
      apply h.step hok hstep
    . apply Together.mk
      . apply Exclusive.mk
        . simp [holders, boot, fromConfig]
        . simp [boot]
      . left
        rfl
      . simp [boot]
      . simp [boot]
  intro i snap rt hi
  apply htogether.pinned i _ hi
  rfl

def emptyDir : PluginRegistry.BuildEnv Unit Unit := { unreadableDir with entries := .ok [] }

def publishing (i : Nat) : List (Pool.Event Arrival (Input Unit Unit)) :=
  [.step i .run, .step i (.lookup fun _ => none), .step i (.tls fun _ => .ok ()),
    .step i (.plugins .run), .step i (.plugins (.built emptyDir)), .step i (.plugins .run)]

def apartRun : List (Pool.Event Arrival (Input Unit Unit)) :=
  [.spawn (.applyConfig bootConfig), .spawn .request, .step 1 .run] ++ publishing 0
    ++ [.step 1 .run, .step 0 .run, .spawn .request, .step 2 .run, .step 2 .run]

def mixedRun : List (Pool.Event Arrival (Input Unit Unit)) :=
  [.spawn (.applyConfig bootConfig), .spawn .request, .step 1 .run] ++ publishing 0
    ++ [.step 0 .run, .step 1 .run]

def pins (p : Tasks Unit Unit) : List (Nat × Nat) := p.threads.filterMap Task.pinned?

theorem apartRun_together
    : ∃ p, Machine.run (step plainCodec) (boot plainCodec bootConfig noPlugins) apartRun = some p
      ∧ pins p = [(0, 0), (1, 1)]
      ∧ ∀ (i : Nat) snap rt, p.threads[i]? = some (.request (.pinned snap rt)) →
        rt.generation = snap.generation := by
  have hrun : ((Machine.run (step plainCodec) (boot plainCodec bootConfig noPlugins) apartRun).map pins)
      = some [(0, 0), (1, 1)] := by
    decide +kernel
  rcases Option.map_eq_some_iff.mp hrun with ⟨p, hp, hpins⟩
  refine ⟨p, hp, hpins, ?_⟩
  apply pinned_together_of_keepsTogether _ hp
  decide +kernel

theorem mixedRun_mixes
    : ∃ (p : Tasks Unit Unit) (i : Nat) (snap : PluginSnapshot Unit Unit) (rt : RuntimeSnapshot),
      Machine.run (step plainCodec) (boot plainCodec bootConfig noPlugins) mixedRun = some p
      ∧ p.threads[i]? = some (.request (.pinned snap rt)) ∧ snap.generation = 0
      ∧ rt.generation = 1 := by
  have hrun : ((Machine.run (step plainCodec) (boot plainCodec bootConfig noPlugins) mixedRun).map pins)
      = some [(0, 1)] := by
    decide +kernel
  rcases Option.map_eq_some_iff.mp hrun with ⟨p, hp, hpins⟩
  have hmem : (0, 1) ∈ pins p := by
    rw [hpins]
    simp
  rcases List.mem_filterMap.mp hmem with ⟨t, ht, hpinned⟩
  rcases List.mem_iff_getElem?.mp ht with ⟨i, hi⟩
  unfold Task.pinned? at hpinned
  split at hpinned
  . next snap rt =>
    rw [Option.some.injEq, Prod.mk.injEq] at hpinned
    exact ⟨p, i, snap, rt, hp, hi, hpinned⟩
  . cases hpinned

end ControlPlane

end OpenRusty
