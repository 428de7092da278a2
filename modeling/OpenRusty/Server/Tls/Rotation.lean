import OpenRusty.Server.ComposeLemmas
import OpenRusty.Server.Reload.Order
import OpenRusty.Server.Tls.Resolver

/-!
This module contains the rotation of the certificates while the gateway runs: an application of an Ingress
pair first publishes its routes and then, in one more step, its certificates. Reloads, configurations in
memory and requests never touch the certificates, so what a handshake selects is decided by the last pair
that was applied and by the static pair of the last listener that has one.
-/

namespace OpenRusty

namespace Tls

open ControlPlane DynamicCertResolver

variable {γ ω κ : Type}

structure Gateway (γ ω κ : Type) where
  control : Tasks γ ω
  resolver : Option (DynamicCertResolver κ)
  -- the pair whose routes are published and whose certificates are not yet
  pending : Option IngressPair := none

inductive Event (γ ω : Type) where
  | control (e : Pool.Event ControlPlane.Arrival (ControlPlane.Input γ ω))
  | publish

def stored? (t : ControlPlane.Task γ ω) : Option IngressPair :=
  match t with
  | .apply (.done published) => published
  | _ => none

def isApply (t : ControlPlane.Task γ ω) : Bool :=
  match t with
  | .apply _ => true
  | _ => false

variable (codec : Codec) (env : TlsEnv κ)

namespace Gateway

def step (g : Gateway γ ω κ) (e : Event γ ω) : Option (Gateway γ ω κ) :=
  match e with
  | .control (.spawn o) =>
    (ControlPlane.step codec g.control (.spawn o)).map fun control => { g with control := control }
  | .control (.step i x) =>
    if g.pending.isSome && g.control.threads[i]?.any isApply then
      none
    else
      (ControlPlane.step codec g.control (.step i x)).map fun control =>
        { g with control := control, pending := g.pending.or (control.threads[i]?.bind stored?) }
  | .publish =>
    g.pending.bind fun pair =>
      match renderTls codec.decode pair.1 pair.2 g.control.shared.staticConfig.ingress.ingressClass with
      | .error _ => none
      | .ok tls =>
        some { g with resolver := g.resolver.map fun r => (r.updateFromTlsPairs env tls).1, pending := none }

def boot (cfg : GatewayConfig) (registry : PluginRegistry γ ω) : Except String (Gateway γ ω κ) :=
  let listeners := effectiveListeners cfg.server
  match (tlsResolver listeners : Option (DynamicCertResolver κ)) with
  | none => .ok { control := ControlPlane.boot codec cfg registry, resolver := none }
  | some r =>
    (bootListeners env cfg.ingress.enabled listeners r).map fun r =>
      { control := ControlPlane.boot codec cfg registry, resolver := some r }

end Gateway

section applied

variable {codec : Codec} {env : TlsEnv κ}

def appliedPair? (p : Publication) : Option IngressPair :=
  match p.origin with
  | .apply pair => some pair
  | _ => none

def applied (s : ControlPlane γ ω) : List IngressPair := s.runtime.history.filterMap appliedPair?

theorem applied_storeRuntime (s : ControlPlane γ ω) (cfg : Config) (generation : Nat) (origin : Origin)
    : applied (s.storeRuntime cfg generation origin)
        = applied s ++ (match origin with | .apply pair => [pair] | _ => []) := by
  unfold applied storeRuntime
  rw [ArcSwap.history_store, List.filterMap_append]
  congr 1
  cases origin <;> rfl

theorem applied_congr {s s' : ControlPlane γ ω} (h : s'.runtime = s.runtime) : applied s' = applied s := by
  rw [applied, applied, h]

theorem applied_of_reload {s s' : ControlPlane γ ω} {r r' : Reload γ ω} (h : Reload.Moves codec s r s' r')
    : applied s' = applied s ∧ s'.staticConfig = s.staticConfig := by
  cases h with
  | reject => exact ⟨rfl, rfl⟩
  | acquire => exact ⟨rfl, rfl⟩
  | prepare => exact ⟨rfl, rfl⟩
  | call => exact ⟨rfl, rfl⟩
  | abandon => exact ⟨rfl, rfl⟩
  | build => exact ⟨rfl, rfl⟩
  | giveUp => exact ⟨rfl, rfl⟩
  | publishPlugins => exact ⟨rfl, rfl⟩
  | register => exact ⟨rfl, rfl⟩
  | @store job =>
    refine ⟨?_, rfl⟩
    rw [applied_storeRuntime, List.append_nil]
  | @dynamic job =>
    have hframe := s.applyDynamic_frame job.resolved
    exact ⟨applied_congr hframe.2.1, hframe.2.2.2⟩
  | loadRoutes => exact ⟨rfl, rfl⟩
  | storeRoutes => exact ⟨rfl, rfl⟩
  | token => exact ⟨rfl, rfl⟩
  | report => exact ⟨rfl, rfl⟩

def composed? (a : Apply) : Option IngressPair :=
  match a with
  | .start _ => none
  | .resolve pair _ => some pair
  | .tls pair _ => some pair
  | .readGeneration pair _ => some pair
  | .register pair _ _ _ => some pair
  | .done _ => none

def Composes (codec : Codec) (base : GatewayConfig) (pair : IngressPair) : Prop :=
  ∃ cfg, base.composePair codec.decode pair = some cfg

theorem applied_of_apply {s s' : ControlPlane γ ω} {a a' : Apply} (h : Apply.Moves codec s a s' a')
    (ha : ∀ pair, composed? a = some pair → Composes codec s.staticConfig pair)
    : applied s' = applied s ++ (stored? (.apply a' : ControlPlane.Task γ ω)).toList
      ∧ (∀ pair, composed? a' = some pair → Composes codec s.staticConfig pair)
      ∧ ∀ pair, stored? (.apply a' : ControlPlane.Task γ ω) = some pair → Composes codec s.staticConfig pair := by
  cases h with
  | refuse => exact ⟨by simp [stored?], by simp [composed?], by simp [stored?]⟩
  | @compose pair cfg hcompose =>
    refine ⟨by simp [stored?, applied], ?_, by simp [stored?]⟩
    intro pair' hpair
    cases hpair
    exact ⟨cfg, hcompose⟩
  | resolve => exact ⟨by simp [stored?], ha, by simp [stored?]⟩
  | tls => exact ⟨by simp [stored?], ha, by simp [stored?]⟩
  | giveUp => exact ⟨by simp [stored?, applied], by simp [composed?], by simp [stored?]⟩
  | readGeneration => exact ⟨by simp [stored?], ha, by simp [stored?]⟩
  | register => exact ⟨by simp [stored?, applied], ha, by simp [stored?]⟩
  | @store pair cfg generation =>
    refine ⟨?_, by simp [composed?], ?_⟩
    . exact applied_storeRuntime s cfg.toConfig generation (.apply pair)
    . intro pair' hpair
      cases hpair
      exact ha pair rfl

end applied

namespace Gateway

variable {codec : Codec} {env : TlsEnv κ} {cfg : GatewayConfig} {registry : PluginRegistry γ ω}

/--
The pair whose certificates are published: the last one that was applied, or, before the certificates of
that one follow its routes, the one before it.
-/
def Follows (g : Gateway γ ω κ) (published : Option IngressPair) : Prop :=
  (g.pending = none ∧ published = (applied g.control.shared).getLast?)
    ∨ ∃ pair before, g.pending = some pair ∧ applied g.control.shared = before ++ [pair] ∧ published = before.getLast?

def IsTable (codec : Codec) (env : TlsEnv κ) (base : GatewayConfig) (published : Option IngressPair)
    (map : AList fun _ : String => κ)
    : Prop :=
  match published with
  | none => map = ∅
  | some pair => ∃ tls, renderTls codec.decode pair.1 pair.2 base.ingress.ingressClass = .ok tls
      ∧ ∀ r : DynamicCertResolver κ, map = (r.updateFromTlsPairs env tls).1.map

structure Inv (codec : Codec) (env : TlsEnv κ) (base : GatewayConfig) (fallback : Option κ) (g : Gateway γ ω κ)
    : Prop where
  static : g.control.shared.staticConfig = base
  composed : ∀ a, ControlPlane.Task.apply a ∈ g.control.threads →
    ∀ pair, composed? a = some pair → Composes codec base pair
  pending : ∀ pair, g.pending = some pair → Composes codec base pair
  resolver : ∀ r, g.resolver = some r → r.fallback = fallback
  table : ∃ published, Follows g published ∧ ∀ r, g.resolver = some r → IsTable codec env base published r.map

variable {base : GatewayConfig} {fallback : Option κ} {g g' : Gateway γ ω κ}

theorem renderTls_of_composes {pair : IngressPair} (h : Composes codec base pair)
    : ∃ tls, renderTls codec.decode pair.1 pair.2 base.ingress.ingressClass = .ok tls := by
  obtain ⟨cfg, hcfg⟩ := h
  unfold GatewayConfig.composePair at hcfg
  dsimp only at hcfg
  cases htls : renderTls codec.decode pair.1 pair.2 base.ingress.ingressClass with
  | ok tls => exact ⟨tls, rfl⟩
  | error e =>
    rw [htls] at hcfg
    split at hcfg
    . cases hcfg
    . split at hcfg <;> cases hcfg

theorem inv_of_publish (h : Inv codec env base fallback g) (hstep : g.step codec env .publish = some g')
    : Inv codec env base fallback g' := by
  obtain ⟨pair, hpending, hrest⟩ := Option.bind_eq_some_iff.mp hstep
  rw [h.static] at hrest
  obtain ⟨tls, htls⟩ := renderTls_of_composes (h.pending pair hpending)
  rw [htls] at hrest
  cases hrest
  obtain ⟨published, hfollows, -⟩ := h.table
  have happlied : (applied g.control.shared).getLast? = some pair := by
    rcases hfollows with ⟨hnone, -⟩ | ⟨pair', before, hpending', happlied, -⟩
    . rw [hnone] at hpending
      cases hpending
    . rw [hpending, Option.some.injEq] at hpending'
      rw [happlied, List.getLast?_concat, hpending']
  refine ⟨h.static, h.composed, fun pair hpair => (by cases hpair), ?_, some pair, .inl ⟨rfl, happlied.symm⟩, ?_⟩
  . intro r hr
    obtain ⟨r', hr', rfl⟩ := Option.map_eq_some_iff.mp hr
    exact h.resolver r' hr'
  . intro r hr
    obtain ⟨r', hr', rfl⟩ := Option.map_eq_some_iff.mp hr
    exact ⟨tls, htls, fun _ => rfl⟩

theorem act_applied {s s' : ControlPlane γ ω} {t t' : ControlPlane.Task γ ω} {x : ControlPlane.Input γ ω}
    (h : t.act codec s x = some (s', t'))
    (ht : ∀ a, t = .apply a → ∀ pair, composed? a = some pair → Composes codec s.staticConfig pair)
    : s'.staticConfig = s.staticConfig ∧ isApply t' = isApply t
      ∧ applied s' = applied s ++ (stored? t').toList
      ∧ (∀ a, t' = .apply a → ∀ pair, composed? a = some pair → Composes codec s.staticConfig pair)
      ∧ ∀ pair, stored? t' = some pair → Composes codec s.staticConfig pair := by
  cases t with
  | reload r =>
    obtain ⟨r', rfl, hmoves⟩ := ControlPlane.Task.act_reload h
    obtain ⟨happlied, hstatic⟩ := applied_of_reload hmoves
    exact ⟨hstatic, rfl, by simp [stored?, happlied], fun a ha => (by cases ha), by simp [stored?]⟩
  | apply a =>
    obtain ⟨a', rfl, hmoves⟩ := ControlPlane.Task.act_apply h
    obtain ⟨happlied, hcomposed, hstored⟩ := applied_of_apply (γ := γ) (ω := ω) hmoves (ht a rfl)
    refine ⟨hmoves.frame.2.2, rfl, happlied, ?_, hstored⟩
    intro a'' ha''
    cases ha''
    exact hcomposed
  | request q =>
    obtain ⟨rfl, hrest⟩ := ControlPlane.Task.act_request h
    rcases hrest with ⟨-, rfl⟩ | ⟨snap, -, rfl⟩
    . exact ⟨rfl, rfl, by simp [stored?], fun a ha => (by cases ha), by simp [stored?]⟩
    . exact ⟨rfl, rfl, by simp [stored?], fun a ha => (by cases ha), by simp [stored?]⟩

theorem inv_of_control {i : Nat} {x : ControlPlane.Input γ ω} (h : Inv codec env base fallback g)
    (hstep : g.step codec env (.control (.step i x)) = some g')
    : Inv codec env base fallback g' := by
  simp only [step] at hstep
  split at hstep
  . cases hstep
  . next hfree =>
    obtain ⟨control, hcontrol, rfl⟩ := Option.map_eq_some_iff.mp hstep
    obtain ⟨o, heq, -⟩ | ⟨j, y, t, s, t', heq, ht, hact, rfl⟩ := Pool.step_cases _ _ hcontrol
    . cases heq
    . cases heq
      obtain ⟨hstatic, hkind, happlied, hcomposed, hstored⟩ := act_applied hact (fun a ha pair hpair => by
        rw [h.static]
        exact h.composed a (ha ▸ List.mem_of_getElem? ht) pair hpair)
      rw [h.static] at hstatic hcomposed hstored
      have hlt := (List.getElem?_eq_some_iff.mp ht).1
      have hnew : ((g.control.threads.set i t')[i]?.bind stored?) = stored? t' := by
        rw [List.getElem?_set_self hlt, Option.bind_some]
      have hfree' : g.pending = none ∨ stored? t' = none := by
        cases hpending : g.pending with
        | none => exact .inl rfl
        | some pair =>
          right
          rw [hpending, ht] at hfree
          simp only [Option.isSome_some, Option.any_some, Bool.true_and, Bool.not_eq_true] at hfree
          rw [hfree] at hkind
          cases t' with
          | apply a => cases hkind
          | reload r => rfl
          | request q => rfl
      refine ⟨hstatic, ?_, ?_, h.resolver, ?_⟩
      . intro a ha pair hpair
        rcases List.mem_or_eq_of_mem_set ha with hold | hnew
        . exact h.composed a hold pair hpair
        . exact hcomposed a hnew.symm pair hpair
      . intro pair hpair
        dsimp only at hpair
        rw [hnew] at hpair
        rcases Option.or_eq_some_iff.mp hpair with hold | ⟨-, hpair⟩
        . exact h.pending pair hold
        . exact hstored pair hpair
      . obtain ⟨published, hfollows, htable⟩ := h.table
        refine ⟨published, ?_, htable⟩
        unfold Follows
        dsimp only
        rw [hnew, happlied]
        cases hst : stored? t' with
        | none =>
          rw [Option.or_none, Option.toList_none, List.append_nil]
          exact hfollows
        | some pair =>
          right
          have hnone := hfree'.resolve_right (by rw [hst]; exact Option.some_ne_none pair)
          rcases hfollows with ⟨-, hpublished⟩ | ⟨pair', before, hpending, -, -⟩
          . exact ⟨pair, applied g.control.shared, by rw [hnone, Option.none_or], rfl, hpublished⟩
          . rw [hnone] at hpending
            cases hpending

theorem inv_of_step {e : Event γ ω} (h : Inv codec env base fallback g) (hstep : g.step codec env e = some g')
    : Inv codec env base fallback g' := by
  cases e with
  | publish => exact inv_of_publish h hstep
  | control e =>
    cases e with
    | step i x => exact inv_of_control h hstep
    | spawn o =>
      cases hstep
      refine ⟨h.static, ?_, h.pending, h.resolver, h.table⟩
      intro a ha pair hpair
      rcases List.mem_append.mp ha with hold | hnew
      . exact h.composed a hold pair hpair
      . rw [List.mem_singleton] at hnew
        cases o <;> cases hnew
        cases hpair

def staticKey (env : TlsEnv κ) (cfg : GatewayConfig) : Option κ :=
  ((effectiveListeners cfg.server).filterMap staticPair).getLast?.bind fun files => (loadPair env files).toOption

theorem inv_boot (h : boot codec env cfg registry = .ok g)
    : Inv codec env cfg (staticKey env cfg) g
      ∧ ∀ l ∈ effectiveListeners cfg.server, ∀ files, staticPair l = some files →
          ∃ key, loadPair env files = .ok key := by
  unfold boot tlsResolver at h
  dsimp only at h
  by_cases hany : (effectiveListeners cfg.server).any usesTls = true
  . rw [if_pos hany] at h
    obtain ⟨r, hr, rfl⟩ := Except.map_eq_ok.mp h
    obtain ⟨hmap, hload, hfallback⟩ := bootListeners_eq_ok env hr
    refine ⟨⟨rfl, fun a ha => (by cases ha), fun pair hpair => (by cases hpair), ?_, none, .inl ⟨rfl, rfl⟩, ?_⟩, hload⟩
    . intro r' hr'
      cases hr'
      rw [hfallback]
      exact Option.or_none
    . intro r' hr'
      cases hr'
      exact hmap
  . rw [if_neg hany] at h
    cases h
    refine ⟨⟨rfl, fun a ha => (by cases ha), fun pair hpair => (by cases hpair), fun r hr => (by cases hr), none,
      .inl ⟨rfl, rfl⟩, fun r hr => (by cases hr)⟩, ?_⟩
    intro l hl files hfiles
    rw [List.any_eq_true] at hany
    unfold staticPair at hfiles
    split at hfiles
    . next huses => exact absurd ⟨l, hl, huses⟩ hany
    . cases hfiles

def Selects (codec : Codec) (env : TlsEnv κ) (cfg : GatewayConfig) (published : Option IngressPair) (name : String)
    (key : κ)
    : Prop :=
  ∃ pair tls, published = some pair
    ∧ Claimed codec.decode pair.2 (adopted pair.1 cfg.ingress.ingressClass) (toAsciiLowercase name) tls
    ∧ env.certifiedKey tls = .ok key

theorem lookup_table {published : Option IngressPair} {r : DynamicCertResolver κ} {name : String} {key : κ}
    (h : IsTable codec env cfg published r.map)
    : r.map.lookup (toAsciiLowercase name) = some key ↔ Selects codec env cfg published name key := by
  cases published with
  | none =>
    have hmap : r.map = ∅ := h
    rw [hmap, AList.lookup_empty]
    constructor
    . intro hkey
      cases hkey
    . rintro ⟨pair, tls, hpair, -, -⟩
      cases hpair
  | some pair =>
    obtain ⟨tls, htls, hmap⟩ := h
    have hclaims := (renderTls_claims codec.decode pair.1 pair.2 cfg.ingress.ingressClass).2.1 tls htls
    have hlower : ∀ host p, tls.lookup host = some p → toAsciiLowercase host = host := by
      intro host p hp
      obtain ⟨e, -, section', -, ⟨-, hhost⟩, -⟩ := (hclaims host p).mp hp
      obtain ⟨raw, -, rfl⟩ := List.mem_map.mp hhost
      exact toAsciiLowercase_normalizeHost raw
    rw [hmap r, lookup_update env hlower]
    constructor
    . rintro ⟨p, hp, hkey⟩
      exact ⟨pair, p, rfl, (hclaims _ p).mp hp, hkey⟩
    . rintro ⟨pair', p, heq, hclaimed, hkey⟩
      cases heq
      exact ⟨p, (hclaims _ p).mpr hclaimed, hkey⟩

theorem certificate_of_run {es : List (Event γ ω)} {g₀ : Gateway γ ω κ} {r : DynamicCertResolver κ}
    (hboot : boot codec env cfg registry = .ok g₀) (hrun : Machine.run (step codec env) g₀ es = some g)
    (hr : g.resolver = some r)
    : (∃ published, Follows g published ∧ ∀ name key, r.lookup (some name) = some key ↔
          Selects codec env cfg published name key
            ∨ (¬∃ key', Selects codec env cfg published name key') ∧ staticKey env cfg = some key)
      ∧ r.lookup none = staticKey env cfg
      ∧ (∀ l ∈ effectiveListeners cfg.server, ∀ files, staticPair l = some files → ∃ key, loadPair env files = .ok key)
      ∧ (g.pending ≠ none → ∃ g', g.step codec env .publish = some g' ∧ g'.pending = none) := by
  obtain ⟨hinv₀, hload⟩ := inv_boot hboot
  have hinv : Inv codec env cfg (staticKey env cfg) g :=
    Machine.inv_of_run_all (fun _ _ _ h hs => inv_of_step h hs) hinv₀ hrun
  obtain ⟨published, hfollows, htable⟩ := hinv.table
  refine ⟨⟨published, hfollows, ?_⟩, ?_, hload, ?_⟩
  . intro name key
    have htab (key' : κ)
        : r.map.lookup (toAsciiLowercase name) = some key' ↔ Selects codec env cfg published name key' :=
      lookup_table (htable r hr)
    unfold lookup
    rw [Option.map_some, Option.bind_some, hinv.resolver r hr, Option.or_eq_some_iff, htab key]
    have hnone : r.map.lookup (toAsciiLowercase name) = none ↔ ¬∃ key', Selects codec env cfg published name key' := by
      rw [Option.eq_none_iff_forall_ne_some, not_exists]
      constructor
      . intro h key' hkey'
        exact h key' ((htab key').mpr hkey')
      . intro h key' hkey'
        exact h key' ((htab key').mp hkey')
    rw [hnone]
  . unfold lookup
    rw [Option.map_none, Option.bind_none, Option.none_or, hinv.resolver r hr]
  . intro hpending
    obtain ⟨pair, hpair⟩ := Option.ne_none_iff_exists'.mp hpending
    -- The same rendering has gone well when the pair was composed.
    obtain ⟨tls, htls⟩ := renderTls_of_composes (hinv.pending pair hpair)
    refine ⟨{ g with resolver := g.resolver.map fun r => (r.updateFromTlsPairs env tls).1, pending := none }, ?_, rfl⟩
    simp only [step, hpair, Option.bind_some, hinv.static, htls]

def textEnv : TlsEnv String where
  readToString file := .ok file
  certifiedKey pair := .ok pair.certPem

def textCodec : Codec where
  decode := decodeText
  debug text := text

def tlsConfig : GatewayConfig :=
  { bootConfig with
    server := {
      bootConfig.server with
      listeners := [{
        role := .inbound
        listen := bootConfig.server.listen
        tls := true
        tlsCert := some "static.crt"
        tlsKey := some "static.key"
      }]
    }
    ingress := { enabled := true } }

def rotation : List (Event Unit Unit) :=
  let apply (i : Nat) : List (Event Unit Unit) :=
    [.control (.step i .run), .control (.step i (.lookup fun _ => none)), .control (.step i (.tls fun _ => .ok ())),
      .control (.step i .run), .control (.step i .run)]
  let pair (secret : String) : IngressPair :=
    (ingressOf "openrusty" [{ hosts := ["A.test"], secretName := some secret }], tlsSecrets)
  [.control (.spawn (.handOver (pair "a")))] ++ apply 0
    ++ [.publish, .control (.spawn (.handOver (pair "b")))] ++ apply 1

theorem certificate_of_run_rotation
    : ∃ (g₀ g : Gateway Unit Unit String) (r : DynamicCertResolver String),
      boot textCodec textEnv tlsConfig noPlugins = .ok g₀ ∧ Machine.run (step textCodec textEnv) g₀ rotation = some g
      ∧ g.resolver = some r ∧ r.lookup none = some "static.crt" ∧ r.lookup (some "a.TEST") = some "A"
      ∧ ∃ g', g.step textCodec textEnv .publish = some g' ∧ g'.pending = none := by
  have hrun : ((boot textCodec textEnv tlsConfig noPlugins).toOption.bind fun g₀ =>
      (Machine.run (step textCodec textEnv) g₀ rotation).bind fun g => g.resolver.map fun r =>
        (r.lookup (some "a.TEST"), g.pending.isSome)) = some (some "A", true) := by
    decide +kernel
  obtain ⟨g₀, hg₀, hrest⟩ := Option.bind_eq_some_iff.mp hrun
  obtain ⟨g, hg, hrest⟩ := Option.bind_eq_some_iff.mp hrest
  obtain ⟨r, hr, hresult⟩ := Option.map_eq_some_iff.mp hrest
  obtain ⟨hlookup, hpending⟩ := Prod.mk.inj hresult
  have hboot : boot textCodec textEnv tlsConfig noPlugins = .ok g₀ := by
    revert hg₀
    cases boot textCodec textEnv tlsConfig noPlugins <;> simp [Except.toOption]
  obtain ⟨-, hnone, -, hpublish⟩ := certificate_of_run hboot hg hr
  have hstatic : staticKey textEnv tlsConfig = some "static.crt" := by decide +kernel
  exact ⟨g₀, g, r, hboot, hg, hr, by rw [hnone, hstatic], hlookup, hpublish (Option.isSome_iff_ne_none.mp hpending)⟩

end Gateway

end Tls

end OpenRusty
