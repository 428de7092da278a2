import OpenRusty.Core.ValidateLemmas
import OpenRusty.Server.IngressLemmas
import OpenRusty.Server.RouteLemmas

/-!
This module contains the proof of when the configuration that an Ingress pair is composed into passes
the validation that it never goes through. The rules about the paths, the peers and the upstreams of
the routes always hold; what the renderer lets through is a blank host, and two backends of one name.
-/

namespace OpenRusty

variable {decode : String → Except String Bytes} {base cfg : GatewayConfig} {pair : IngressPair}

theorem isBlank_trim (s : String) : isBlank (trim s) = isBlank s := by
  rw [Bool.eq_iff_iff, isBlank_iff]
  unfold isBlank trim
  rw [String.toList_ofList, List.isEmpty_iff]
  constructor
  . intro h
    -- The last character that is left over would be white space.
    by_contra hne
    have hlast := List.rdropWhile_last_not isWhiteSpace (s.toList.dropWhile isWhiteSpace) hne
    apply hlast
    apply h
    apply List.getLast_mem
  . intro h
    rw [h]
    simp

theorem isBlank_normalizeHost (host : String) : isBlank (normalizeHost host) = isBlank host := by
  rw [normalizeHost_eq, isBlank_trim, Bool.eq_iff_iff, isBlank_iff, isBlank_iff]
  simp [isWhiteSpace_toLower]

theorem buildUpstream_validate (t : Target) : (buildUpstream t).validate = .ok () := by
  have hdot : isBlank (endpoint t) = false := by
    rw [← Bool.not_eq_true, isBlank_iff]
    intro h
    have := h '.' (by simp [endpoint])
    revert this
    decide
  simp [UpstreamConfig.validate, buildUpstream, Except.forEach, require, Except.ensure, hdot, bind,
    Except.bind, pure, Except.pure]

theorem upstreamName_ne_empty (t : Target) : upstreamName t ≠ "" := by
  intro h
  have := congrArg String.toList h
  simp [upstreamName] at this

def HostsNamed (ingressClass : String) (snap : Snapshot Ingress) : Prop :=
  ∀ x ∈ owned snap ingressClass, ∀ rule ∈ x.2.spec.rules, rule.http.getD [] ≠ [] →
    ∀ host, rule.host = some host → isBlank host = false

/-- Two backends of one name are only there if a static upstream hides both. -/
def NamesApart (upstreams : List UpstreamConfig) (ingressClass : String) (snap : Snapshot Ingress)
    : Prop :=
  ∀ t t', Rendered snap ingressClass t → Rendered snap ingressClass t' → Confusable t t' →
    upstreamName t ∈ upstreams.map UpstreamConfig.name

section composed

variable {upstreams : List UpstreamConfig} {ingressClass : String} {snap : Snapshot Ingress}
variable {routes : List RouteConfig} {targets : List Target}

theorem hosts_iff (hroutes : renderRoutes snap ingressClass = .ok routes)
    : (∀ route ∈ routes, ∀ h, route.host = some h → isBlank h = false)
      ↔ HostsNamed ingressClass snap := by
  constructor
  . intro h x hx rule hrule hpaths host hhost
    rcases List.exists_mem_of_ne_nil _ hpaths with ⟨path, hpath⟩
    rcases path_of_renderRoutes hroutes hx hrule hpath with ⟨hslash, t, ht⟩
    have hroute : renderPath rule path t ∈ routes := by
      rw [mem_renderRoutes hroutes]
      exact ⟨t, x, hx, .inr ⟨rule, hrule, path, hpath, hslash, ht, rfl⟩⟩
    rw [← isBlank_normalizeHost]
    apply h _ hroute
    simp [renderPath, hhost]
  . intro h route hroute host hhost
    rcases (mem_renderRoutes hroutes).mp hroute with ⟨t, x, hx, hcases⟩
    rcases hcases with ⟨backend, -, -, rfl⟩ | ⟨rule, hrule, path, hpath, -, -, rfl⟩
    . cases hhost
    . simp only [renderPath, Option.map_eq_some_iff] at hhost
      rcases hhost with ⟨named, hnamed, rfl⟩
      rw [isBlank_normalizeHost]
      apply h x hx rule hrule (List.ne_nil_of_mem hpath) named hnamed

theorem names_iff (hroutes : renderRoutes snap ingressClass = .ok routes)
    (htargets : renderTargets snap ingressClass = .ok targets)
    (hdistinct : (upstreams.map UpstreamConfig.name).Nodup)
    : ((upstreams ++ (targets.map buildUpstream).filter fun u =>
          !(upstreams.map UpstreamConfig.name).contains u.name).map UpstreamConfig.name).Nodup
      ↔ NamesApart upstreams ingressClass snap := by
  have htarget (t : Target) : t ∈ targets ↔ Rendered snap ingressClass t := by
    apply mem_renderTargets_iff_route hroutes htargets
  unfold NamesApart
  generalize htaken : upstreams.map UpstreamConfig.name = taken
  have hrendered : ((targets.map buildUpstream).filter fun u => !taken.contains u.name).map
      UpstreamConfig.name = (targets.filter fun t => !taken.contains (upstreamName t)).map
      upstreamName := by
    rw [List.filter_map, List.map_map]
    rfl
  rw [htaken] at hdistinct
  have hfree (t : Target) : (t ∈ targets.filter fun t => !taken.contains (upstreamName t))
      ↔ Rendered snap ingressClass t ∧ upstreamName t ∉ taken := by
    simp [List.mem_filter, htarget]
  have hnodup := (nodup_renderTargets htargets).filter fun t => !taken.contains (upstreamName t)
  rw [List.map_append, htaken, hrendered, List.nodup_append, List.nodup_map_iff_inj_on hnodup]
  simp only [hfree]
  constructor
  . intro h t t' ht ht' hconf
    by_contra hname
    have heq : upstreamName t = upstreamName t' := upstreamName_eq_iff.mpr (.inr (.inl hconf))
    have := h.2.1 t ⟨ht, hname⟩ t' ⟨ht', heq ▸ hname⟩ heq
    apply hconf.ne this
  . intro h
    refine ⟨hdistinct, ?_, ?_⟩
    . intro t ht t' ht' heq
      rcases upstreamName_eq_iff.mp heq with rfl | hconf | hconf
      . rfl
      . exfalso
        apply ht.2
        apply h t t' ht.1 ht'.1 hconf
      . exfalso
        apply ht'.2
        apply h t' t ht'.1 ht.1 hconf
    . intro name hname name' hname'
      rcases List.mem_map.mp hname' with ⟨t, ht, rfl⟩
      rintro rfl
      apply ((hfree t).mp ht).2 hname

theorem upstream_of_renderRoutes (hroutes : renderRoutes snap ingressClass = .ok routes)
    (htargets : renderTargets snap ingressClass = .ok targets) {route : RouteConfig}
    (hroute : route ∈ routes)
    : route.upstream ∈ (upstreams ++ (targets.map buildUpstream).filter fun u =>
        !(upstreams.map UpstreamConfig.name).contains u.name).map UpstreamConfig.name := by
  rcases (mem_renderRoutes hroutes).mp hroute with ⟨t, ht⟩
  have hmem : t ∈ targets := (mem_renderTargets_iff_route hroutes htargets).mpr ⟨route, ht⟩
  rw [upstream_of_routeFor ht, List.map_append, List.mem_append]
  by_cases hstatic : upstreamName t ∈ upstreams.map UpstreamConfig.name
  . left
    assumption
  . right
    apply List.mem_map.mpr
    refine ⟨buildUpstream t, ?_, rfl⟩
    rw [List.mem_filter]
    refine ⟨List.mem_map_of_mem hmem, ?_⟩
    simpa [buildUpstream] using hstatic

theorem path_of_mem_renderRoutes (hroutes : renderRoutes snap ingressClass = .ok routes)
    {route : RouteConfig} (hroute : route ∈ routes)
    : startsWith route.pathPrefix "/" = true := by
  rcases (mem_renderRoutes hroutes).mp hroute with ⟨t, x, -, hcases⟩
  rcases hcases with ⟨backend, -, -, rfl⟩ | ⟨rule, -, path, -, hslash, -, rfl⟩
  . simp [startsWith_iff, renderDefault]
  . rw [startsWith_iff]
    cases hpath : path.path.toList with
    | nil => simp [hpath] at hslash
    | cons c cs =>
      simp only [hpath, List.head?_cons, Option.some.injEq] at hslash
      subst hslash
      simp [renderPath, hpath]

end composed

theorem mem_upstreams_composed {base : Config} {routes : List RouteConfig} {targets : List Target}
    {up : UpstreamConfig}
    (h : up ∈ (buildIngressConfig base routes (targets.map buildUpstream)).upstreams)
    : up ∈ base.upstreams ∨ ∃ t, up = buildUpstream t := by
  cases List.mem_append.mp h with
  | inl hstatic =>
    left
    assumption
  | inr hrendered =>
    right
    rcases List.mem_map.mp (List.mem_filter.mp hrendered).1 with ⟨t, -, rfl⟩
    exact ⟨t, rfl⟩

theorem upstream_of_composed {routes : List RouteConfig} {targets : List Target}
    (hbase : base.toConfig.Valid)
    (hroutes : renderRoutes pair.1 base.ingress.ingressClass = .ok routes)
    (htargets : renderTargets pair.1 base.ingress.ingressClass = .ok targets) {route : RouteConfig}
    (hroute : route ∈ base.routes ++ routes)
    : route.upstream
      ∈ (buildIngressConfig base.toConfig (base.routes ++ routes)
        (targets.map buildUpstream)).upstreams.map UpstreamConfig.name := by
  cases List.mem_append.mp hroute with
  | inl hstatic =>
    dsimp [buildIngressConfig]
    rw [List.map_append, List.mem_append]
    left
    exact (hbase.route route hstatic).upstream
  | inr hroute => apply upstream_of_renderRoutes hroutes htargets hroute

theorem valid_composed_iff {routes : List RouteConfig} {targets : List Target}
    (hbase : base.toConfig.Valid)
    (hroutes : renderRoutes pair.1 base.ingress.ingressClass = .ok routes)
    (htargets : renderTargets pair.1 base.ingress.ingressClass = .ok targets)
    : (buildIngressConfig base.toConfig (base.routes ++ routes) (targets.map buildUpstream)).Valid
        ↔
      HostsNamed base.ingress.ingressClass pair.1
        ∧ NamesApart base.upstreams base.ingress.ingressClass pair.1 := by
  rw [← hosts_iff hroutes, ← names_iff hroutes htargets hbase.distinct]
  constructor
  . intro h
    refine ⟨?_, h.distinct⟩
    intro route hroute
    apply (h.route route (List.mem_append_right _ hroute)).host
  . intro h
    apply Config.Valid.mk
    . intro hne hnil
      rcases List.exists_mem_of_ne_nil _ hne with ⟨route, hroute⟩
      have := upstream_of_composed hbase hroutes htargets hroute
      rw [hnil] at this
      cases this
    . exact h.2
    . intro up hup
      rcases mem_upstreams_composed hup with hstatic | ⟨t, rfl⟩
      . apply hbase.named up hstatic
      . apply upstreamName_ne_empty
    . intro up hup
      rcases mem_upstreams_composed hup with hstatic | ⟨t, rfl⟩
      . apply hbase.upstream up hstatic
      . apply buildUpstream_validate
    . intro route hroute
      have hupstream := upstream_of_composed hbase hroutes htargets hroute
      cases List.mem_append.mp hroute with
      | inl hstatic =>
        have hvalid := hbase.route route hstatic
        exact ⟨hvalid.path, hvalid.host, hupstream⟩
      | inr hroute =>
        exact ⟨path_of_mem_renderRoutes hroutes hroute, h.1 route hroute, hupstream⟩

theorem validate_composePair_iff {env : ConfigEnv} (hbase : base.validate env = .ok ())
    (hcompose : base.composePair decode pair = some cfg)
    : cfg.validate env = .ok ()
        ↔
      HostsNamed base.ingress.ingressClass pair.1
        ∧ NamesApart base.upstreams base.ingress.ingressClass pair.1 := by
  rcases composePair_eq_some hcompose with ⟨routes, targets, hroutes, htargets, rfl⟩
  rw [GatewayConfig.validate_eq_ok] at hbase
  have hsections : (base.buildIngressConfig (base.routes ++ routes)
      (targets.map buildUpstream)).validateSections env = .ok () := by
    apply hbase.1
  rw [GatewayConfig.validate_eq_ok, ← valid_composed_iff hbase.2 hroutes htargets]
  constructor
  . intro h
    exact h.2
  . intro h
    exact ⟨hsections, h⟩

def clusterEnv : ConfigEnv where
  lookupHost := clusterHosts
  debug := fun text => "\"" ++ text ++ "\""

def noSecrets : String → Except String Bytes := fun _ => .error "Invalid padding"

def blankHostSnapshot : Snapshot Ingress :=
  Snapshot.replaceFromList [hostIngress "a" "b" ""] "7"

theorem separateSnapshot_validates
    : ∃ cfg, plainGateway.composePair noSecrets (separateSnapshot, Snapshot.replaceFromList [] "7")
        = some cfg
      ∧ plainGateway.validate clusterEnv = .ok () ∧ cfg.validate clusterEnv = .ok () := by
  have hbase : plainGateway.validate clusterEnv = .ok () := by
    decide +kernel
  have hsome : (plainGateway.composePair noSecrets
      (separateSnapshot, Snapshot.replaceFromList [] "7")).isSome := by
    decide +kernel
  rcases Option.isSome_iff_exists.mp hsome with ⟨cfg, hcompose⟩
  refine ⟨cfg, hcompose, hbase, (validate_composePair_iff hbase hcompose).mpr ⟨?_, ?_⟩⟩
  . have hnamed : ∀ x ∈ owned separateSnapshot "openrusty", ∀ rule ∈ x.2.spec.rules,
        rule.host = some "shop.test" := by
      decide +kernel
    intro x hx rule hrule _ host hhost
    rw [hnamed x hx rule hrule] at hhost
    cases hhost
    decide +kernel
  . intro t t' ht ht' hconf
    rcases composePair_eq_some hcompose with ⟨routes, targets, hroutes, -, -⟩
    exfalso
    apply separateSnapshot_not_confusable hroutes t t' ht ht' hconf

theorem confusedSnapshot_invalid
    : plainGateway.validate clusterEnv = .ok ()
      ∧ (plainGateway.composePair noSecrets (confusedSnapshot, Snapshot.replaceFromList [] "7")).map
          (fun cfg => cfg.validate clusterEnv)
        = some (.error (.invalid "duplicate upstream name: ing-a-b-c-80"))
      ∧ (plainGateway.composePair noSecrets (blankHostSnapshot, Snapshot.replaceFromList [] "7")).map
          (fun cfg => cfg.validate clusterEnv)
        = some (.error (.invalid "route #0 host must not be empty")) := by
  decide +kernel

end OpenRusty
