import OpenRusty.Core.ContextLemmas
import OpenRusty.Core.ValidateLemmas
import OpenRusty.Lib.FinMap
import OpenRusty.Server.Metrics.Series
import OpenRusty.Wasm.Registry.Serial

/-!
This module contains the condition under which the metrics can be read back: no peer of an upstream is
configured twice, and no count of errors leaves 64 bits when the view of the plugins is added to the
collector.
-/

namespace OpenRusty

inductive RuntimeSnapshot.BuiltFrom (cfg : Config) : RuntimeSnapshot → Prop where
  | fresh (generation : Nat) : BuiltFrom cfg (.fromConfig cfg generation)
  | resolved (lookupHost : String → Option (List SocketAddr)) (generation : Nat)
    : BuiltFrom cfg (.fromConfig (resolveConfig lookupHost cfg) generation)

inductive PluginSnapshot.PublishedFrom {γ ω : Type} (cfg : PluginsConfig) : PluginSnapshot γ ω → Prop where
  | bootstrap {engine : PluginRegistry.EngineEnv} {env : PluginRegistry.BuildEnv γ ω} {reg : PluginRegistry γ ω}
    (h : PluginRegistry.bootstrap engine env cfg = .ok reg)
    : PublishedFrom cfg reg.swap.current
  | reload {env : PluginRegistry.BuildEnv γ ω} {prev plugins : PluginSnapshot γ ω} {free free' : Nat}
    (h : PluginRegistry.build env cfg prev free = .ok (plugins, free'))
    : PublishedFrom cfg plugins

namespace Metrics

open Exposition (Sample Distinct Exposes)

section errors

variable {counts : AList fun _ : String × String => Nat} {errors : ErrorView} {k : String × String}

def errorTotal (counts : AList fun _ : String × String => Nat) (errors : ErrorView) (k : String × String) : Nat :=
  (counts.lookup k).getD 0 + ((errors.filter fun e => (e.1, e.2.1) = k).map fun e => e.2.2).sum

theorem lookup_mergeErrors (add : Nat → Nat → Nat)
    : (mergeErrors add counts errors).lookup k
        =
      if (errors.filter fun e => (e.1, e.2.1) = k) = [] then
        counts.lookup k
      else
        some ((errors.filter fun e => (e.1, e.2.1) = k).foldl (fun n e => add n e.2.2) ((counts.lookup k).getD 0)) :=
  AList.lookup_foldl_update (fun e : String × String × Nat => (e.1, e.2.1)) (fun n e => add n e.2.2) 0 errors counts k

theorem foldl_add (errors : ErrorView) (n : Nat)
    : errors.foldl (fun n e => n + e.2.2) n = n + (errors.map fun e => e.2.2).sum := by
  induction errors generalizing n with
  | nil => rfl
  | cons e errors ih => rw [List.foldl_cons, ih, List.map_cons, List.sum_cons, Nat.add_assoc]

theorem foldl_wrappingAdd {errors : ErrorView} (hne : errors ≠ []) (n : Nat)
    : errors.foldl (fun n e => Word.wrappingAdd 64 n e.2.2) n = (n + (errors.map fun e => e.2.2).sum) % 2 ^ 64 := by
  induction errors generalizing n with
  | nil => exact absurd rfl hne
  | cons e errors ih =>
    rw [List.foldl_cons, List.map_cons, List.sum_cons, ← Nat.add_assoc]
    by_cases hnil : errors = []
    . subst hnil
      rfl
    . rw [ih hnil, Word.wrappingAdd_mod]

theorem lookup_mergeErrors_add (hk : (errors.filter fun e => (e.1, e.2.1) = k) ≠ [])
    : (mergeErrors (· + ·) counts errors).lookup k = some (errorTotal counts errors k) := by
  rw [lookup_mergeErrors, if_neg hk, foldl_add]
  rfl

theorem lookup_mergeErrors_wrappingAdd (hk : (errors.filter fun e => (e.1, e.2.1) = k) ≠ [])
    : (mergeErrors (Word.wrappingAdd 64) counts errors).lookup k = some (errorTotal counts errors k % 2 ^ 64) := by
  rw [lookup_mergeErrors, if_neg hk, foldl_wrappingAdd hk]
  rfl

theorem filter_ne_nil {e : String × String × Nat} (he : e ∈ errors)
    : (errors.filter fun d => (d.1, d.2.1) = (e.1, e.2.1)) ≠ [] := by
  apply List.ne_nil_of_mem (a := e)
  rw [List.mem_filter]
  exact ⟨he, by simp⟩

theorem mergeErrors_perm (h : ∀ e ∈ errors, errorTotal counts errors (e.1, e.2.1) < 2 ^ 64)
    : (mergeErrors (Word.wrappingAdd 64) counts errors).entries.Perm (mergeErrors (· + ·) counts errors).entries := by
  apply List.lookup_ext (AList.nodupKeys _) (AList.nodupKeys _)
  intro k n
  have hlookup : (mergeErrors (Word.wrappingAdd 64) counts errors).lookup k
      = (mergeErrors (· + ·) counts errors).lookup k := by
    by_cases hk : (errors.filter fun e => (e.1, e.2.1) = k) = []
    . rw [lookup_mergeErrors, lookup_mergeErrors, if_pos hk, if_pos hk]
    . rw [lookup_mergeErrors_wrappingAdd hk, lookup_mergeErrors_add hk]
      rcases List.exists_mem_of_ne_nil _ hk with ⟨e, he⟩
      rw [List.mem_filter, decide_eq_true_iff] at he
      have hlt := h e he.1
      rw [he.2] at hlt
      rw [Nat.mod_eq_of_lt hlt]
  exact iff_of_eq (congrArg (n ∈ ·) hlookup)

end errors

section samples

variable {φ : Type} (fmt : FloatFormat φ) (snap : MetricsSnapshot φ) (peers : LivePeers) (kv : KvView)

theorem samplesOf_perm {a b : AList fun _ : String × String => Nat} (h : a.entries.Perm b.entries)
    : (samplesOf fmt snap peers kv a).Perm (samplesOf fmt snap peers kv b) := by
  have herrors : (counterSamples "openrusty_plugin_errors_total" "plugin" "kind" id a).Perm
      (counterSamples "openrusty_plugin_errors_total" "plugin" "kind" id b) :=
    h.map _
  unfold samplesOf families
  simp only [List.flatMap_cons, List.flatMap_nil, List.append_nil]
  exact (List.Perm.append_left _ (.append_left _ (.append_left _ (.append_right _ herrors))))

def errorSample (plugin kind : String) (n : Nat) : Sample where
  name := "openrusty_plugin_errors_total"
  labels := [("plugin", plugin), ("kind", kind)]
  value := .integer n

theorem mem_samplesOf_iff {errors : AList fun _ : String × String => Nat} {plugin kind : String} {n : Nat}
    : errorSample plugin kind n ∈ samplesOf fmt snap peers kv errors ↔ errors.lookup (plugin, kind) = some n := by
  have hfamily : (["openrusty_plugin_errors_total"],
      counterSamples "openrusty_plugin_errors_total" "plugin" "kind" id errors)
        ∈ families fmt snap peers kv errors := by
    simp [families]
  have hcounter : errorSample plugin kind n ∈ counterSamples "openrusty_plugin_errors_total" "plugin" "kind" id errors
      ↔ errors.lookup (plugin, kind) = some n := by
    rw [← Option.mem_def, AList.mem_lookup_iff]
    unfold counterSamples
    rw [List.mem_map]
    constructor
    . rintro ⟨⟨key, m⟩, he, heq⟩
      simp only [errorSample, Sample.mk.injEq, List.cons.injEq, Prod.mk.injEq, id_eq, true_and, and_true,
        Exposition.Value.integer.injEq] at heq
      rcases heq with ⟨⟨rfl, rfl⟩, rfl⟩
      exact he
    . intro he
      exact ⟨_, he, rfl⟩
  unfold samplesOf
  rw [List.mem_flatMap, ← hcounter]
  constructor
  . rintro ⟨f, hf, hmem⟩
    -- Only one family has the name.
    have hname := names_of_families fmt snap hf hmem
    simp only [families, List.mem_cons, List.not_mem_nil, or_false] at hf
    rcases hf with rfl | rfl | rfl | rfl | rfl | rfl | rfl | rfl | rfl
    case inr.inr.inr.inl => exact hmem
    all_goals
      simp [errorSample] at hname
  . intro hmem
    exact ⟨_, hfamily, hmem⟩

end samples

theorem exposes_render_iff {φ : Type} (fmt : FloatFormat φ) (snap : MetricsSnapshot φ) (peers : LivePeers)
    {kv : KvView} (hkv : (kv.map Prod.fst).Nodup) (errors : ErrorView)
    : Exposes (render fmt snap peers kv errors).toList
          (samplesOf fmt snap peers kv (mergeErrors (· + ·) snap.pluginErrors errors))
        ↔
      (peers.map fun p => (p.1, p.2.1)).Nodup
        ∧ ∀ e ∈ errors, errorTotal snap.pluginErrors errors (e.1, e.2.1) < 2 ^ 64 := by
  rw [(writes_render fmt snap peers kv errors).exposes_iff, distinct_samplesOf_iff fmt snap hkv, and_comm]
  apply and_congr_right
  intro _
  constructor
  . intro hperm e he
    have htotal : (mergeErrors (· + ·) snap.pluginErrors errors).lookup (e.1, e.2.1) = some _ :=
      lookup_mergeErrors_add (filter_ne_nil he)
    have hexposed := (mem_samplesOf_iff fmt snap peers kv).mpr htotal
    rw [← hperm.mem_iff, mem_samplesOf_iff, lookup_mergeErrors_wrappingAdd (filter_ne_nil he), Option.some.injEq]
      at hexposed
    rw [← hexposed]
    exact Nat.mod_lt _ (by decide)
  . intro h
    exact samplesOf_perm fmt snap peers kv (mergeErrors_perm h)

section endpoint

theorem order_nodup {env : ConfigEnv} {cfg : GatewayConfig} (h : cfg.validate env = .ok ())
    : cfg.plugins.order.Nodup := by
  have hsections := (GatewayConfig.validate_eq_ok.mp h).1
  unfold GatewayConfig.validateSections at hsections
  simp only [Except.unit_bind_eq_ok] at hsections
  have hrest := hsections.2.2.2
  split at hrest
  . simp only [Except.unit_bind_eq_ok, Except.forFresh_eq_ok] at hrest
    simpa using hrest.2.2.2.2
  . simp only [Except.unit_bind_eq_ok, Except.forFresh_eq_ok] at hrest
    simpa using hrest.2.2.2

theorem distinct_of_published {γ ω : Type} {cfg : PluginsConfig} (horder : cfg.order.Nodup)
    {plugins : PluginSnapshot γ ω} (h : plugins.PublishedFrom cfg)
    : PluginRegistry.Distinct plugins := by
  cases h with
  | reload h => exact PluginRegistry.distinct_of_build h horder
  | bootstrap h =>
    replace h := (PluginRegistry.bootstrap_eq_ok.mp h).2
    unfold PluginRegistry.initial at h
    split at h
    . rw [Except.bind_eq_ok] at h
      rcases h with ⟨plugins, hplugins, h⟩
      cases h
      unfold PluginRegistry.Distinct
      dsimp only [ArcSwap.new]
      rw [PluginRegistry.names_of_loadPlugins hplugins]
      exact PluginRegistry.orderPlugins_nodup horder
    . cases h
      exact List.nodup_nil

theorem map_upstreamPeers (health : HealthRegistry) (nowMs : Nat) (name : String) (peers : List Peer)
    : (upstreamPeers health nowMs name peers).map (fun p => (p.1, p.2.1))
        =
      (peers.map Peer.addr).map fun addr => (name, addr.toString) := by
  unfold upstreamPeers
  apply List.ext_getElem
  . simp
  . intro i h h'
    simp

theorem nodup_livePeers_iff (rt : RuntimeSnapshot) (health : HealthRegistry) (nowMs : Nat)
    : ((livePeers rt health nowMs).map fun p => (p.1, p.2.1)).Nodup
        ↔
      ∀ name up, rt.upstreams.lookup name = some up → up.up.addrs.Nodup := by
  have hsorted : (rt.upstreams.keys.insertionSort fun a b => a ≤ b).Nodup :=
    (List.perm_insertionSort _ _).nodup_iff.mpr rt.upstreams.keys_nodup
  have hupstream : ∀ name (peers : List Peer),
      ((upstreamPeers health nowMs name peers).map fun p => (p.1, p.2.1)).Nodup ↔ (peers.map Peer.addr).Nodup := by
    intro name peers
    rw [map_upstreamPeers, List.nodup_map_iff]
    intro a b hab
    exact SocketAddr.toString_injective (Prod.mk.inj hab).2
  have hname : ∀ {name : String} {peers : List Peer} {key : String × String},
      key ∈ (upstreamPeers health nowMs name peers).map (fun p => (p.1, p.2.1)) → key.1 = name := by
    intro name peers key hkey
    rw [map_upstreamPeers] at hkey
    rcases List.mem_map.mp hkey with ⟨addr, -, rfl⟩
    rfl
  unfold livePeers
  rw [List.map_flatMap, List.nodup_flatMap]
  constructor
  . rintro ⟨hnodup, -⟩ name up hup
    have hmem : name ∈ rt.upstreams.keys.insertionSort fun a b => a ≤ b := by
      rw [List.mem_insertionSort, ← AList.mem_keys, ← AList.lookup_isSome, hup]
      rfl
    have h := hnodup name hmem
    rw [hup] at h
    exact (hupstream name up.up.peers).mp h
  . intro h
    constructor
    . intro name _
      split
      . exact List.nodup_nil
      . next up hup => exact (hupstream name up.up.peers).mpr (h name up hup)
    . apply hsorted.imp
      intro a b hab key hkey hkey'
      dsimp only at hkey hkey'
      split at hkey
      . cases hkey
      . split at hkey'
        . cases hkey'
        . exact hab ((hname hkey).symm.trans (hname hkey'))

theorem nodup_addrs_iff {cfg : Config} (hcfg : cfg.Valid) {rt : RuntimeSnapshot} (h : rt.BuiltFrom cfg)
    : (∀ name up, rt.upstreams.lookup name = some up → up.up.addrs.Nodup)
        ↔
      ∀ up ∈ cfg.upstreams, (up.peers.map PeerConfig.addr).Nodup := by
  have haddrs : ∀ uc : UpstreamConfig, (UpstreamRt.fromConfig uc).up.addrs = uc.peers.map PeerConfig.addr := by
    intro uc
    simp [UpstreamRt.fromConfig, Upstream.fromConfig, Upstream.addrs]
  have hbuilt : ∀ {upstreams : List UpstreamConfig}, (upstreams.map UpstreamConfig.name).Nodup →
      ((∀ name up, (upstreams.foldl (fun (m : AList fun _ : String => UpstreamRt) uc =>
          m.insert uc.name (UpstreamRt.fromConfig uc)) ∅).lookup name = some up → up.up.addrs.Nodup)
        ↔ ∀ uc ∈ upstreams, (uc.peers.map PeerConfig.addr).Nodup) := by
    intro upstreams hnames
    constructor
    . intro h uc huc
      rw [← haddrs]
      exact h uc.name _ (AList.lookup_foldl_insert_of_nodup UpstreamRt.fromConfig hnames huc)
    . intro h name up hup
      rcases AList.mem_of_lookup_foldl_insert hup with ⟨uc, huc, -, rfl⟩
      rw [haddrs]
      exact h uc huc
  cases h with
  | fresh generation => exact hbuilt hcfg.distinct
  | resolved lookupHost generation =>
    have hnames : ((resolveConfig lookupHost cfg).upstreams.map UpstreamConfig.name).Nodup := by
      have hmap : (resolveConfig lookupHost cfg).upstreams.map UpstreamConfig.name
          = cfg.upstreams.map UpstreamConfig.name := by
        simp [resolveConfig, resolveUpstream_name]
      rw [hmap]
      exact hcfg.distinct
    have hresolved := hbuilt hnames
    simp only [resolveConfig, List.forall_mem_map, nodup_resolveUpstream_iff] at hresolved
    exact hresolved

def kvOf (view : List PluginMetrics) : KvView := view.map fun p => (p.1, p.2.2)

def errorsOf (view : List PluginMetrics) : ErrorView := view.flatMap fun p => p.2.1.map fun e => (p.1, e.1, e.2)

/--
What the endpoint shall expose: the counters of the collector with the errors that the plugins have
counted added to them, and the gauges.
-/
def exposed {φ : Type} (fmt : FloatFormat φ) (snap : MetricsSnapshot φ) (rt : RuntimeSnapshot)
    (health : HealthRegistry) (nowMs : Nat) (view : List PluginMetrics)
    : List Sample :=
  samplesOf fmt snap (livePeers rt health nowMs) (kvOf view) (mergeErrors (· + ·) snap.pluginErrors (errorsOf view))

theorem metricsEndpoint_exposes_iff {γ ω φ : Type} {env : ConfigEnv} {cfg : GatewayConfig}
    (hcfg : cfg.validate env = .ok ()) {rt : RuntimeSnapshot} (hrt : rt.BuiltFrom cfg.toConfig)
    {plugins : PluginSnapshot γ ω} (hplugins : plugins.PublishedFrom cfg.plugins) (fmt : FloatFormat φ)
    (snap : MetricsSnapshot φ) (health : HealthRegistry) (nowMs : Nat)
    (errorKinds : Nat → AList fun _ : String => Nat) (states : List HostState)
    : Exposes (metricsEndpoint fmt snap rt health nowMs (plugins.metricView errorKinds states)).toList
          (exposed fmt snap rt health nowMs (plugins.metricView errorKinds states))
        ↔
      (∀ up ∈ cfg.upstreams, (up.peers.map PeerConfig.addr).Nodup)
        ∧ ∀ e ∈ errorsOf (plugins.metricView errorKinds states),
          errorTotal snap.pluginErrors (errorsOf (plugins.metricView errorKinds states)) (e.1, e.2.1) < 2 ^ 64 := by
  have hnames : (kvOf (plugins.metricView errorKinds states)).map Prod.fst = plugins.plugins.map fun p => p.name := by
    simp [kvOf, PluginSnapshot.metricView]
  have hkv : ((kvOf (plugins.metricView errorKinds states)).map Prod.fst).Nodup := by
    rw [hnames]
    exact distinct_of_published (order_nodup hcfg) hplugins
  have hvalid := (GatewayConfig.validate_eq_ok.mp hcfg).2
  rw [← nodup_addrs_iff hvalid hrt, ← nodup_livePeers_iff rt health nowMs]
  exact exposes_render_iff fmt snap (livePeers rt health nowMs) hkv (errorsOf (plugins.metricView errorKinds states))

def zeroSums : FloatFormat Unit where
  print _ := "0.000000"
  plain := by
    intro _ c hc
    have hall : "0.000000".toList.all (fun c => c.isAlphanum = true ∨ c = '.' ∨ c = '-') = true := by decide
    exact of_decide_eq_true (List.all_eq_true.mp hall c hc)

def gateway (peers : List PeerConfig) : GatewayConfig where
  upstreams := [{ name := "api", peers := peers }]
  server := { listen := { ip := .v4 0x7f000001, port := 8080 } }
  plugins := { order := ["auth"] }

def noLookups : ConfigEnv where
  lookupHost _ := none
  debug := id

def collected : MetricsSnapshot Unit where
  requests := (∅ : AList fun _ : String × Nat => Nat).insert ("/a\\b\"c\n", 200) 3
  attempts := ∅
  pluginErrors := (∅ : AList fun _ : String × String => Nat).insert ("auth", "trap") 2
  transparent := ∅
  dynamic := ∅
  phases := ∅
  buckets := durationBuckets.map fun _ => 3
  buckets_length := by decide
  count := 3
  sum := ()

def traps (_ : Nat) : AList fun _ : String => Nat := (∅ : AList fun _ : String => Nat).insert "trap" 4

def peerAt (port : BitVec 16) : PeerConfig := { addr := { ip := .v4 0x0a000001, port := port }, weight := 1 }

def anyEngine : PluginRegistry.EngineEnv := { newEngine := fun _ => .ok (), buildLinker := .ok () }

theorem metricsEndpoint_exposes_iff_twoPeers
    : ∃ reg, PluginRegistry.bootstrap anyEngine PluginRegistry.authPlugin (gateway [peerAt 80, peerAt 81]).plugins
          = .ok reg
      ∧ Exposes
          (metricsEndpoint zeroSums collected (.fromConfig (gateway [peerAt 80, peerAt 81]).toConfig 1) .new 0
            (reg.swap.current.metricView traps reg.states)).toList
          (exposed zeroSums collected (.fromConfig (gateway [peerAt 80, peerAt 81]).toConfig 1) .new 0
            (reg.swap.current.metricView traps reg.states)) := by
  have hcfg : (gateway [peerAt 80, peerAt 81]).validate noLookups = .ok () := by decide +kernel
  have hreg : PluginRegistry.bootstrap anyEngine PluginRegistry.authPlugin (gateway [peerAt 80, peerAt 81]).plugins
      = .ok _ := rfl
  refine ⟨_, hreg, ?_⟩
  apply (metricsEndpoint_exposes_iff hcfg (.fresh 1) (.bootstrap hreg) zeroSums collected .new 0 traps _).mpr
  constructor
  . decide +kernel
  . decide +kernel

theorem repeatedPeer_not_exposed
    : (gateway [peerAt 80, peerAt 80]).validate noLookups = .ok ()
      ∧ ∃ reg, PluginRegistry.bootstrap anyEngine PluginRegistry.authPlugin (gateway [peerAt 80, peerAt 80]).plugins
          = .ok reg
        ∧ ¬Exposes
          (metricsEndpoint zeroSums collected (.fromConfig (gateway [peerAt 80, peerAt 80]).toConfig 1) .new 0
            (reg.swap.current.metricView traps reg.states)).toList
          (exposed zeroSums collected (.fromConfig (gateway [peerAt 80, peerAt 80]).toConfig 1) .new 0
            (reg.swap.current.metricView traps reg.states)) := by
  refine ⟨by decide +kernel, _, rfl, ?_⟩
  intro h
  have hpeers := ((exposes_render_iff zeroSums collected _ (by decide +kernel) _).mp h).1
  revert hpeers
  decide +kernel

end endpoint

end Metrics
end OpenRusty
