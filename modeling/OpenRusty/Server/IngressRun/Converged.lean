import OpenRusty.Server.ComposeLemmas
import OpenRusty.Server.IngressRun.Watched
import OpenRusty.Server.Reload.Runtime

/-!
This module contains the convergence of the Ingress plane: when all watch loops and the applier are at rest, the
runtime that was applied last is built from the union of what the loops hold. The applier reads the newest pair
and goes on as long as there is a newer one, so it cannot stop at an older pair.
-/

namespace OpenRusty

def Origin.isApply (o : Origin) : Bool :=
  match o with
  | .apply _ => true
  | _ => false

def lastApplied (runtime : ArcSwap Publication) : Option Publication :=
  runtime.history.reverse.find? fun pub => pub.origin.isApply

theorem lastApplied_store (runtime : ArcSwap Publication) (pub : Publication)
    : lastApplied (runtime.store pub) = if pub.origin.isApply then some pub else lastApplied runtime := by
  unfold lastApplied
  rw [ArcSwap.history_store, List.reverse_append, List.reverse_singleton, List.singleton_append, List.find?_cons]
  cases pub.origin.isApply <;> rfl

namespace ControlPlane

variable {γ ω : Type} {codec : Codec} {s s' : ControlPlane γ ω}

theorem Reload.Moves.lastApplied {r r' : Reload γ ω} (h : Reload.Moves codec s r s' r')
    : s'.staticConfig = s.staticConfig ∧ OpenRusty.lastApplied s'.runtime = OpenRusty.lastApplied s.runtime := by
  cases h with
  | store =>
    refine ⟨rfl, ?_⟩
    rw [storeRuntime, lastApplied_store]
    rfl
  | @dynamic job =>
    have hframe := s.applyDynamic_frame job.resolved
    exact ⟨hframe.2.2.2, by rw [hframe.2.1]⟩
  | _ => exact ⟨rfl, rfl⟩

namespace Apply

def Tracks (decode : String → Except String Bytes) (base : GatewayConfig) (last : Option Publication)
    (pair : IngressPair) (a : Apply)
    : Prop :=
  match a with
  | .start pair' => pair' = pair
  | .resolve pair' cfg => pair' = pair ∧ base.composePair decode pair = some cfg
  | .tls pair' cfg | .readGeneration pair' cfg | .register pair' cfg _ _ =>
    pair' = pair ∧ ∃ composed, base.composePair decode pair = some composed ∧ Resolves composed cfg
  | .done none => base.composePair decode pair = none
  | .done (some _) => ∃ composed pub, base.composePair decode pair = some composed ∧ last = some pub
    ∧ pub.origin = .apply pair
    ∧ ∃ cfg generation, Resolves composed cfg ∧ pub.runtime = .fromConfig cfg.toConfig generation

def TlsLoads (a : Apply) (x : Input γ ω) : Bool :=
  match a, x with
  | .tls _ cfg, .tls build => (buildTlsPlans build cfg.toConfig).isOk
  | _, _ => true

theorem tracks_of_act {a a' : Apply} {x : Input γ ω} {pair : IngressPair} (hact : a.act codec s x = some (s', a'))
    (htls : a.TlsLoads x = true)
    (h : a.Tracks codec.decode s.staticConfig (lastApplied s.runtime) pair)
    : s'.staticConfig = s.staticConfig
      ∧ a'.Tracks codec.decode s.staticConfig (lastApplied s'.runtime) pair := by
  unfold act at hact
  split at hact
  . cases h
    split at hact
    . cases hact
    . split at hact
      . next hcompose =>
        cases hact
        exact ⟨rfl, hcompose⟩
      . next cfg hcompose =>
        cases hact
        exact ⟨rfl, rfl, hcompose⟩
  . next lookupHost =>
    cases hact
    exact ⟨rfl, h.1, _, h.2, lookupHost, rfl⟩
  . next pair' cfg build =>
    split at hact
    . cases hact
      exact ⟨rfl, h⟩
    . next detail herror =>
      rw [TlsLoads, herror] at htls
      cases htls
  . cases hact
    exact ⟨rfl, h⟩
  . cases hact
    exact ⟨rfl, h⟩
  . next pair' cfg generation =>
    cases hact
    obtain ⟨rfl, composed, hcompose, hresolves⟩ := h
    refine ⟨rfl, composed, { runtime := .fromConfig cfg.toConfig generation, origin := .apply pair' }, hcompose, ?_,
      rfl, cfg, generation, hresolves, rfl⟩
    exact lastApplied_store _ _
  . cases hact

end Apply

end ControlPlane

namespace IngressRun

open ControlPlane

namespace Plane

variable {γ ω : Type}

structure AtRest (p : Plane γ ω) : Prop where
  ingresses : p.ingresses.AtRest
  secrets : p.secrets.AtRest
  applier : p.applier = .waiting p.pair.version

instance (p : Plane γ ω) : Decidable p.AtRest :=
  decidable_of_iff (p.ingresses.AtRest ∧ p.secrets.AtRest ∧ p.applier = .waiting p.pair.version)
    ⟨fun h => ⟨h.1, h.2.1, h.2.2⟩, fun h => ⟨h.ingresses, h.secrets, h.applier⟩⟩

/-- The conditions of the watch loops and of their hand-overs, and that the TLS material of the upstreams loads. -/
def Settled (p : Plane γ ω) (e : Event γ ω) : Prop :=
  match e with
  | .ingress e => p.ingresses.Settled e
  | .secret e => p.secrets.Settled e
  | .control (.step i x) =>
    match p.control.threads[i]? with
    | some (.apply a) => a.TlsLoads x = true
    | _ => True
  | _ => True

instance (p : Plane γ ω) (e : Event γ ω) : Decidable (p.Settled e) := by
  unfold Settled
  split
  . infer_instance
  . infer_instance
  . split <;> infer_instance
  . infer_instance

def Seen (p : Plane γ ω) : Prop :=
  match p.applier with
  | .waiting seen => seen = 0 ∧ p.taken = none
    ∨ ∃ task pair, p.taken = some (task, pair) ∧ seen ≤ p.pair.version ∧ (seen = p.pair.version → pair = p.pair.value)
  | .debouncing _ => True
  | .applying seen task => ∃ pair, p.taken = some (task, pair) ∧ seen ≤ p.pair.version
    ∧ (seen = p.pair.version → pair = p.pair.value)

structure Inv (codec : Codec) (cfg : GatewayConfig) (p : Plane γ ω) : Prop where
  ingresses : p.ingresses.Inv (ingressPaths cfg.ingress.namespaces)
  secrets : p.secrets.Inv (secretPaths cfg.ingress.namespaces)
  pair : p.pair.value = (p.ingresses.handOvers.shared.published, p.secrets.handOvers.shared.published)
  static : p.control.shared.staticConfig = cfg
  unpublished : p.pair.version = 0 → ∀ f ∈ p.ingresses.handOvers.shared.folds,
    ∃ t, p.ingresses.handOvers.threads[f.1]? = some t ∧ t.merged.isSome
  -- only the task that the applier waits for is at work
  idle : ∀ (j : Nat) a, p.control.threads[j]? = some (.apply a) → (∀ seen, p.applier ≠ .applying seen j) →
    ∃ r, a = .done r
  taken : ∀ task pair, p.taken = some (task, pair) → ∃ a, p.control.threads[task]? = some (.apply a)
    ∧ a.Tracks codec.decode cfg (lastApplied p.control.shared.runtime) pair
  seen : p.Seen

variable {codec : Codec} {parsers : Parsers} {cfg : GatewayConfig} {p q : Plane γ ω}

theorem inv_boot (registry : PluginRegistry γ ω) : (boot codec cfg registry).Inv codec cfg where
  ingresses := Watched.inv_init _
  secrets := Watched.inv_init _
  pair := rfl
  static := rfl
  unpublished := by
    intro _ f hf
    cases hf
  idle := by
    intro j a ha
    simp [boot, ControlPlane.boot] at ha
  taken := by
    intro task pair h
    cases h
  seen := .inl ⟨rfl, rfl⟩

theorem Seen.send (h : p.Seen) (pair : WatchCell IngressPair) (hversion : p.pair.version < pair.version)
    {p' : Plane γ ω} (hpair : p'.pair = pair) (happlier : p'.applier = p.applier) (htaken : p'.taken = p.taken)
    : p'.Seen := by
  unfold Seen at h ⊢
  rw [happlier, htaken, hpair]
  cases hcase : p.applier with
  | waiting seen =>
    rw [hcase] at h
    obtain hnone | ⟨task, pair', htask, hle, -⟩ := h
    . exact .inl hnone
    . exact .inr ⟨task, pair', htask, by omega, by omega⟩
  | debouncing seen => trivial
  | applying seen task =>
    rw [hcase] at h
    obtain ⟨pair', htask, hle, -⟩ := h
    exact ⟨pair', htask, by omega, by omega⟩

theorem Inv.stepIngress (hnamespaces : cfg.ingress.namespaces.Nodup) (h : p.Inv codec cfg) {e : WatchedStep Ingress}
    (hok : p.ingresses.Settled e) (hstep : p.stepIngress parsers e = some q)
    : q.Inv codec cfg := by
  obtain ⟨k, hk, hq⟩ := Option.map_eq_some_iff.mp hstep
  have hinv : k.Inv _ := h.ingresses.step (nodup_resourcePaths hnamespaces _ _ _) hok hk
  obtain ⟨i, x, w, w', rfl, -, -, -, rfl⟩ | ⟨i, w, incoming, handOvers, rfl, -, -, hfold, rfl⟩
      | ⟨i, handOvers, rfl, hpublish, rfl⟩ := Watched.step_cases hk
  . cases hq
    exact { h with ingresses := hinv }
  . cases hq
    obtain ⟨hfolds, hpublished, t', ht', hthreads, hlt⟩ := of_foldStep h.ingresses.handOvers hfold
    refine { h with ingresses := hinv, pair := ?_, unpublished := ?_ }
    . rw [h.pair]
      dsimp only
      rw [hpublished]
    . intro hversion f hf
      dsimp only at hf ⊢
      rw [hfolds, List.mem_append, List.mem_singleton] at hf
      rw [hthreads]
      by_cases hi : i = f.1
      . exact ⟨t', by rw [← hi, List.getElem?_set_self hlt], ht'⟩
      . rw [List.getElem?_set_ne hi]
        obtain hold | rfl := hf
        . exact h.unpublished hversion f hold
        . exact absurd rfl hi
  . cases hq
    refine { h with ingresses := hinv, pair := ?_, unpublished := ?_, seen := ?_ }
    . simp [sendIngresses, WatchCell.send, h.pair]
    . simp [sendIngresses, WatchCell.send]
    . exact Seen.send h.seen (p.sendIngresses _) (Nat.lt_succ_self _) rfl rfl rfl

theorem Inv.stepSecret (hnamespaces : cfg.ingress.namespaces.Nodup) (h : p.Inv codec cfg) {e : WatchedStep Secret}
    (hok : p.secrets.Settled e) (hstep : p.stepSecret parsers e = some q)
    : q.Inv codec cfg := by
  obtain ⟨k, hk, hq⟩ := Option.map_eq_some_iff.mp hstep
  have hinv : k.Inv _ := h.secrets.step (nodup_resourcePaths hnamespaces _ _ _) hok hk
  obtain ⟨i, x, w, w', rfl, -, -, -, rfl⟩ | ⟨i, w, incoming, handOvers, rfl, -, -, hfold, rfl⟩
      | ⟨i, handOvers, rfl, hpublish, rfl⟩ := Watched.step_cases hk
  . cases hq
    exact { h with secrets := hinv }
  . cases hq
    obtain ⟨-, hpublished, -⟩ := of_foldStep h.secrets.handOvers hfold
    refine { h with secrets := hinv, pair := ?_ }
    rw [h.pair]
    dsimp only
    rw [hpublished]
  . cases hq
    refine { h with secrets := hinv, pair := ?_, unpublished := ?_, seen := ?_ }
    . simp [sendSecrets, WatchCell.send, h.pair]
    . simp [sendSecrets, WatchCell.send]
    . exact Seen.send h.seen (p.sendSecrets _) (Nat.lt_succ_self _) rfl rfl rfl

theorem Inv.over (h : p.Inv codec cfg) (hnone : ∀ seen task, p.applier ≠ .applying seen task) {j : Nat} {a : Apply}
    (ha : p.control.threads[j]? = some (.apply a))
    : ∃ r, a = .done r := by
  apply h.idle j a ha
  intro seen
  exact hnone seen j

theorem Inv.stepApplier (h : p.Inv codec cfg) {e : Event γ ω} (hstep : p.stepApplier codec e = some q)
    : q.Inv codec cfg := by
  unfold Plane.stepApplier at hstep
  split at hstep
  . next seen happlier =>
    obtain ⟨x, -, hx⟩ := Option.bind_eq_some_iff.mp hstep
    split at hx
    . cases hx
      refine { h with idle := ?_, seen := trivial }
      intro j a ha _
      exact h.over (by simp [happlier]) ha
    . cases hx
  . next seen happlier =>
    obtain ⟨control, hcontrol, rfl⟩ := Option.map_eq_some_iff.mp hstep
    cases hcontrol
    refine { h with idle := ?_, taken := ?_, seen := ?_ }
    . intro j a ha hne
      rw [List.getElem?_append] at ha
      split at ha
      . exact h.over (by simp [happlier]) ha
      . next hge =>
        exfalso
        apply hne p.pair.version
        have hlt := (List.getElem?_eq_some_iff.mp ha).1
        rw [List.length_singleton] at hlt
        -- The only task that is not over is the one that was started just now.
        rw [show j = p.control.threads.length by omega]
    . intro task pair htaken
      cases htaken
      exact ⟨.start p.pair.value, by simp [ControlPlane.Task.start], rfl⟩
    . exact ⟨p.pair.value, rfl, Nat.le_refl _, fun _ => rfl⟩
  . next seen task happlier =>
    split at hstep
    . next r hdone =>
      cases hstep
      refine { h with idle := ?_, seen := ?_ }
      . intro j a ha _
        by_cases hj : task = j
        . subst hj
          rw [hdone] at ha
          cases ha
          exact ⟨r, rfl⟩
        . apply h.idle j a ha
          rw [happlier]
          rintro seen' ⟨⟩
          exact hj rfl
      . have hseen := h.seen
        rw [Seen, happlier] at hseen
        obtain ⟨pair, htaken, hle, heq⟩ := hseen
        exact .inr ⟨task, pair, htaken, hle, heq⟩
    . cases hstep
  . cases hstep

theorem Inv.applying (h : p.Inv codec cfg) {j : Nat} {a a' : Apply} {s' : ControlPlane γ ω} {x : ControlPlane.Input γ ω}
    (hj : p.control.threads[j]? = some (.apply a)) (hact : a.act codec p.control.shared x = some (s', a'))
    : ∃ seen pair, p.applier = .applying seen j ∧ p.taken = some (j, pair)
      ∧ a.Tracks codec.decode cfg (lastApplied p.control.shared.runtime) pair := by
  by_cases happlying : ∀ seen, p.applier ≠ .applying seen j
  . obtain ⟨r, rfl⟩ := h.idle j a hj happlying
    cases hact
  . push Not at happlying
    obtain ⟨seen, happlier⟩ := happlying
    have hseen := h.seen
    rw [Seen, happlier] at hseen
    obtain ⟨pair, htaken, -⟩ := hseen
    obtain ⟨a₀, ha₀, htracks⟩ := h.taken j pair htaken
    rw [hj] at ha₀
    cases ha₀
    exact ⟨seen, pair, happlier, htaken, htracks⟩

theorem Inv.set_other (h : p.Inv codec cfg) {i : Nat} {t' : ControlPlane.Task γ ω} {s' : ControlPlane γ ω}
    (hi : ∀ a, p.control.threads[i]? ≠ some (.apply a)) (ht' : ∀ a, t' ≠ .apply a)
    (hstatic : s'.staticConfig = cfg)
    (hlast : lastApplied s'.runtime = lastApplied p.control.shared.runtime)
    : Inv codec cfg { p with control := { shared := s', threads := p.control.threads.set i t' } } := by
  refine { h with static := hstatic, idle := ?_, taken := ?_ }
  . intro j b hb hne
    obtain ⟨-, rfl⟩ | ⟨-, hold⟩ := Pool.getElem?_set_cases hb
    . exact absurd rfl (ht' b)
    . exact h.idle j b hold hne
  . intro task pair htaken
    obtain ⟨a, ha, htracks⟩ := h.taken task pair htaken
    refine ⟨a, ?_, by rw [hlast]; exact htracks⟩
    rw [List.getElem?_set_ne]
    . exact ha
    . rintro rfl
      exact hi a ha

theorem Inv.stepTask (h : p.Inv codec cfg) {i : Nat} {x : ControlPlane.Input γ ω}
    {t t' : ControlPlane.Task γ ω} {s' : ControlPlane γ ω}
    (hok : p.Settled (.control (.step i x))) (hi : p.control.threads[i]? = some t)
    (hact : t.act codec p.control.shared x = some (s', t'))
    : Inv codec cfg { p with control := { shared := s', threads := p.control.threads.set i t' } } := by
  have hlt := (List.getElem?_eq_some_iff.mp hi).1
  cases t with
  | apply a =>
    obtain ⟨⟨s, a'⟩, ha', heq⟩ := Option.map_eq_some_iff.mp hact
    cases heq
    obtain ⟨seen, pair, happlier, htaken, htracks⟩ := h.applying hi ha'
    rw [Settled, hi] at hok
    rw [← h.static] at htracks
    obtain ⟨hstatic, htracks'⟩ := Apply.tracks_of_act ha' hok htracks
    rw [h.static] at hstatic htracks'
    refine { h with static := hstatic, idle := ?_, taken := ?_ }
    . intro j b hb hne
      obtain ⟨rfl, -⟩ | ⟨-, hold⟩ := Pool.getElem?_set_cases hb
      . exact absurd happlier (hne seen)
      . exact h.idle j b hold hne
    . intro task pair' htask
      rw [htaken] at htask
      cases htask
      exact ⟨a', List.getElem?_set_self hlt, htracks'⟩
  | reload r =>
    obtain ⟨r', rfl, hmoves⟩ := ControlPlane.Task.act_reload hact
    obtain ⟨hstatic, hlast⟩ := hmoves.lastApplied
    exact h.set_other (by rw [hi]; rintro a ⟨⟩) (by rintro a ⟨⟩) (hstatic.trans h.static) hlast
  | request r =>
    obtain ⟨rfl, hcases⟩ := ControlPlane.Task.act_request hact
    refine h.set_other (by rw [hi]; rintro a ⟨⟩) ?_ h.static rfl
    obtain ⟨-, rfl⟩ | ⟨snap, -, rfl⟩ := hcases <;> rintro a ⟨⟩

theorem Inv.stepControl (h : p.Inv codec cfg) {e : Pool.Event ControlPlane.Arrival (ControlPlane.Input γ ω)}
    (hok : p.Settled (.control e))
    (hstep : p.stepControl codec e = some q)
    : q.Inv codec cfg := by
  unfold Plane.stepControl at hstep
  split at hstep
  . cases hstep
  . next e hnot =>
    obtain ⟨control, hcontrol, rfl⟩ := Option.map_eq_some_iff.mp hstep
    obtain ⟨o, rfl, rfl⟩ | ⟨i, x, t, s', t', rfl, hi, hact, rfl⟩ := Pool.step_cases _ _ hcontrol
    . have hstart : ∀ a, (ControlPlane.Task.start o : ControlPlane.Task γ ω) ≠ .apply a := by
        intro a ha
        cases o with
        | handOver pair => exact hnot pair rfl
        | _ => cases ha
      refine { h with idle := ?_, taken := ?_ }
      . intro j a ha hne
        rw [List.getElem?_append] at ha
        split at ha
        . exact h.idle j a ha hne
        . have hmem := List.mem_of_getElem? ha
          rw [List.mem_singleton] at hmem
          exact absurd hmem.symm (hstart a)
      . intro task pair htaken
        obtain ⟨a, ha, htracks⟩ := h.taken task pair htaken
        exact ⟨a, by rw [List.getElem?_append_left (List.getElem?_eq_some_iff.mp ha).1, ha], htracks⟩
    . exact h.stepTask hok hi hact

theorem Inv.step (hnamespaces : cfg.ingress.namespaces.Nodup) (h : p.Inv codec cfg) {e : Event γ ω} (hok : p.Settled e)
    (hstep : p.step codec parsers e = some q)
    : q.Inv codec cfg := by
  cases e with
  | ingress e => exact h.stepIngress hnamespaces hok hstep
  | secret e => exact h.stepSecret hnamespaces hok hstep
  | control e => exact h.stepControl hok hstep
  | changed => exact h.stepApplier hstep
  | take => exact h.stepApplier hstep
  | finish => exact h.stepApplier hstep

theorem Inv.version_ne_zero (h : p.Inv codec cfg) (hrest : p.AtRest) : p.pair.version ≠ 0 := by
  intro hzero
  have hlen : 0 < (ingressPaths cfg.ingress.namespaces).length := by
    unfold ingressPaths resourcePaths
    dsimp only
    split
    . simp
    . next hne =>
      rw [List.length_map]
      exact List.length_pos_of_ne_nil (by simpa using hne)
  obtain ⟨path, hpath⟩ : ∃ path, (ingressPaths cfg.ingress.namespaces)[0]? = some path :=
    ⟨_, List.getElem?_eq_getElem hlen⟩
  have hlt : 0 < p.ingresses.watchers.length := by
    rw [h.ingresses.length]
    exact hlen
  have hw := List.getElem?_eq_getElem hlt
  obtain ⟨hclean, hfree⟩ := hrest.ingresses.clean _ (List.getElem_mem hlt)
  obtain ⟨handed, hhanded, -⟩ := h.ingresses.inSync 0 _ hw hclean
  have hlatest := h.ingresses.folded 0 _ path hw hpath hfree
  rw [hhanded] at hlatest
  obtain ⟨f, hf, -⟩ := Option.map_eq_some_iff.mp hlatest
  obtain ⟨t, ht, hmerged⟩ := h.unpublished hzero f (by simpa using List.mem_of_find?_eq_some hf)
  have hnone := hrest.ingresses.published t (List.mem_of_getElem? ht)
  rw [Option.isNone_iff_eq_none] at hnone
  rw [hnone] at hmerged
  cases hmerged

theorem converged_at_rest {registry : PluginRegistry γ ω} {es : List (Event γ ω)}
    (hnamespaces : cfg.ingress.namespaces.Nodup)
    (hok : Machine.Guarded (step codec parsers) Settled (boot codec cfg registry) es)
    (hrun : Machine.run (step codec parsers) (boot codec cfg registry) es = some p) (hrest : p.AtRest)
    : (∀ key, p.pair.value.1.items.lookup key = p.ingresses.items key)
        ∧ (∀ key, p.pair.value.2.items.lookup key = p.secrets.items key)
        ∧ ∀ composed, cfg.composePair codec.decode p.pair.value = some composed →
          ∃ pub resolved generation, lastApplied p.control.shared.runtime = some pub ∧ pub.origin = .apply p.pair.value
            ∧ Resolves composed resolved ∧ pub.runtime = .fromConfig resolved.toConfig generation := by
  have hinv : p.Inv codec cfg := by
    apply Machine.inv_of_run _ (inv_boot registry) hok hrun
    intro p e q hp he hstep
    exact hp.step hnamespaces he hstep
  rw [hinv.pair]
  refine ⟨hinv.ingresses.converged hrest.ingresses, hinv.secrets.converged hrest.secrets, ?_⟩
  rw [← hinv.pair]
  intro composed hcompose
  have hseen := hinv.seen
  rw [Seen, hrest.applier] at hseen
  obtain ⟨hzero, -⟩ | ⟨task, pair, htaken, -, heq⟩ := hseen
  -- An applier that has taken no pair has seen version 0, and that is not the version of a plane at rest.
  . exact absurd hzero (hinv.version_ne_zero hrest)
  . cases heq rfl
    obtain ⟨a, ha, htracks⟩ := hinv.taken task _ htaken
    obtain ⟨r, rfl⟩ := hinv.over (by simp [hrest.applier]) ha
    cases r with
    | none =>
      rw [Apply.Tracks, hcompose] at htracks
      cases htracks
    | some pair' =>
      obtain ⟨composed', pub, hcompose', hlast, horigin, resolved, generation, hresolves, hruntime⟩ := htracks
      rw [hcompose] at hcompose'
      cases hcompose'
      exact ⟨pub, resolved, generation, hlast, horigin, hresolves, hruntime⟩

def twoNamespaces : GatewayConfig := { plainGateway with ingress := { enabled := true, namespaces := ["a", "d"] } }

def noFrames : Parsers where
  ingress _ := none
  secret _ := none

def listing {T : Type} (i : Nat) (items : List T) : List (WatchedStep T) :=
  [.input i (.listed items "1"), .input i .opened, .input i .deadline, .fold i, .publish i]

def twoNamespacesRun : List (Event Unit Unit) :=
  (listing 0 [defaultIngress "a" "b-c"]).map .ingress ++ [.changed]
    ++ (listing 1 [hostIngress "d" "c" "shop.test"]).map .ingress
    ++ (listing 0 []).map .secret ++ (listing 1 []).map .secret
    ++ [.take]
    ++ [.run, .lookup clusterHosts, .tls fun _ => .ok (), .run, .run, .run, .run].map (fun x => .control (.step 0 x))
    ++ [.finish]

theorem converged_at_rest_twoNamespaces
    : ∃ p pub,
      Machine.run (step plainCodec noFrames) (boot plainCodec twoNamespaces noPlugins) twoNamespacesRun = some p
      ∧ p.ingresses.items ("d", "web") = some (hostIngress "d" "c" "shop.test")
      ∧ p.pair.value.1.items.lookup ("d", "web") = some (hostIngress "d" "c" "shop.test")
      ∧ lastApplied p.control.shared.runtime = some pub ∧ pub.origin = .apply p.pair.value := by
  have heval : (Machine.run (step plainCodec noFrames) (boot plainCodec twoNamespaces noPlugins) twoNamespacesRun).map
      (fun p => (decide p.AtRest, (twoNamespaces.composePair plainCodec.decode p.pair.value).isSome,
        p.ingresses.items ("d", "web")))
        = some (true, true, some (hostIngress "d" "c" "shop.test")) := by
    decide +kernel
  obtain ⟨p, hp, hfacts⟩ := Option.map_eq_some_iff.mp heval
  rw [Prod.mk.injEq, Prod.mk.injEq, decide_eq_true_iff] at hfacts
  obtain ⟨hrest, hsome, hitems⟩ := hfacts
  obtain ⟨composed, hcompose⟩ := Option.isSome_iff_exists.mp hsome
  obtain ⟨hingresses, -, happlied⟩ := converged_at_rest (by decide) (by decide +kernel) hp hrest
  obtain ⟨pub, -, -, hlast, horigin, -⟩ := happlied composed hcompose
  exact ⟨p, pub, hp, hitems, (hingresses _).trans hitems, hlast, horigin⟩

end Plane

end IngressRun

end OpenRusty
