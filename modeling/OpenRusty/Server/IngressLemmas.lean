import OpenRusty.K8s.Render.Lemmas
import OpenRusty.Lib.FinMap
import OpenRusty.Server.Ingress
import OpenRusty.Server.RouteLemmas

/-!
This module contains the proof that a rendered route reaches the backend that it was rendered for,
unless two rendered targets are confusable or a static upstream takes the name.
-/

namespace OpenRusty

variable {lookupHost : String → Option (List SocketAddr)} {h h' : HealthRegistry} {base : Config}
variable {ingressClass : String} {generation : Nat} {snap : Snapshot Ingress} {rt : RuntimeSnapshot}
variable {decode : String → Except String Bytes} {build : UpstreamTlsConfig → Except String Unit} {pair : IngressPair}

def servicePeers (lookupHost : String → Option (List SocketAddr)) (t : Target) : List Peer :=
  (resolveEndpoint lookupHost (endpoint t) []).map fun addr => { addr := addr, weight := 1 }

def staticUpstream (base : Config) (name : String) : Option UpstreamConfig :=
  base.upstreams.reverse.find? fun uc => uc.name == name

def Rendered (snap : Snapshot Ingress) (ingressClass : String) (t : Target) : Prop :=
  ∃ route, RouteFor snap ingressClass route t

theorem name_resolveUpstream (uc : UpstreamConfig)
    : (resolveUpstream lookupHost uc).name = uc.name := by
  unfold resolveUpstream mergeResolved
  simp only [apply_ite UpstreamConfig.name, ite_self]

theorem peers_resolveUpstream_buildUpstream (t : Target)
    : (Upstream.fromConfig (resolveUpstream lookupHost (buildUpstream t))).peers
        =
      servicePeers lookupHost t := by
  unfold resolveUpstream buildUpstream servicePeers
  simp only [List.isEmpty_cons, Bool.false_eq_true, ↓reduceIte, List.map_nil, resolveEndpoints,
    List.append_nil]
  split
  . next hempty =>
    rw [List.isEmpty_iff.mp hempty]
    rfl
  . simp [Upstream.fromConfig, mergeResolved]

theorem Confusable.ne {t t' : Target} (hconf : Confusable t t') : t ≠ t' := by
  intro heq
  subst heq
  obtain ⟨-, e, hns, -⟩ := confusable_iff.mp hconf
  have := congrArg List.length hns
  simp at this

section composePair

variable {decode : String → Except String Bytes} {base cfg : GatewayConfig} {pair : IngressPair}

theorem composePair_cases (h : base.composePair decode pair = some cfg)
    : ∃ routes rendered merged, renderRoutes pair.1 base.ingress.ingressClass = .ok routes
      ∧ renderUpstreams pair.1 base.ingress.ingressClass = .ok rendered
      ∧ merge base.routes routes = .ok merged
      ∧ cfg = base.buildIngressConfig merged rendered := by
  unfold GatewayConfig.composePair at h
  dsimp only at h
  split at h
  . cases h
  . next routes hroutes =>
    split at h
    . cases h
    . next rendered hrendered =>
      split at h
      . cases h
      . split at h
        . cases h
        . next merged hmerged =>
          cases h
          exact ⟨routes, rendered, merged, hroutes, hrendered, hmerged, rfl⟩

theorem composePair_eq_some (h : base.composePair decode pair = some cfg)
    : ∃ routes targets, renderRoutes pair.1 base.ingress.ingressClass = .ok routes
      ∧ renderTargets pair.1 base.ingress.ingressClass = .ok targets
      ∧ cfg = base.buildIngressConfig (base.routes ++ routes) (targets.map buildUpstream) := by
  rcases composePair_cases h with ⟨routes, rendered, merged, hroutes, hrendered, hmerged, rfl⟩
  rcases Except.map_eq_ok.mp hrendered with ⟨targets, htargets, rfl⟩
  rw [(merge_eq_ok.mp hmerged).1]
  exact ⟨routes, targets, hroutes, htargets, rfl⟩

end composePair

theorem applyPair_eq_some {base : GatewayConfig}
    (happly : applyPair decode build lookupHost h base generation pair = some (h', rt))
    : ∃ routes targets, renderRoutes pair.1 base.ingress.ingressClass = .ok routes
      ∧ renderTargets pair.1 base.ingress.ingressClass = .ok targets
      ∧ rt.routes = base.routes ++ routes
      ∧ rt.upstreams = (resolveConfig lookupHost (buildIngressConfig base.toConfig (base.routes ++ routes)
          (targets.map buildUpstream))).upstreams.foldl
            (fun m uc => m.insert uc.name (UpstreamRt.fromConfig uc)) ∅ := by
  unfold applyPair at happly
  split at happly
  . cases happly
  . next composed hcompose =>
    obtain ⟨routes, targets, hroutes, htargets, rfl⟩ := composePair_eq_some hcompose
    dsimp only at happly
    split at happly
    . cases happly
    . simp only [applyRuntime, Option.some.injEq, Prod.mk.injEq] at happly
      obtain ⟨-, rfl⟩ := happly
      exact ⟨routes, targets, hroutes, htargets, rfl, rfl⟩

theorem staticUpstream_eq_none {name : String}
    : staticUpstream base name = none ↔ name ∉ base.upstreams.map UpstreamConfig.name := by
  unfold staticUpstream
  simp

theorem find_buildIngressConfig (routes : List RouteConfig) (rendered : List UpstreamConfig)
    (name : String)
    : ((buildIngressConfig base routes rendered).upstreams.reverse.find? fun uc => uc.name == name)
        =
      (staticUpstream base name).or (rendered.reverse.find? fun uc => uc.name == name) := by
  unfold buildIngressConfig
  simp only [List.reverse_append, List.find?_append, ← List.filter_reverse, List.find?_filter]
  rw [← staticUpstream]
  cases hstatic : staticUpstream base name with
  | none =>
    rw [staticUpstream_eq_none] at hstatic
    rw [Option.or_none, Option.none_or]
    congr 1
    funext uc
    by_cases heq : uc.name = name
    . subst heq
      simpa using hstatic
    . simp [heq]
  | some uc =>
    have hmem : name ∈ base.upstreams.map UpstreamConfig.name := by
      by_contra hnot
      rw [staticUpstream_eq_none.mpr hnot] at hstatic
      cases hstatic
    rw [List.find?_eq_none.mpr]
    . rfl
    . intro uc' _ hcontra
      simp only [decide_eq_true_eq, Bool.not_eq_true', beq_iff_eq] at hcontra
      obtain ⟨hfree, heq⟩ := hcontra
      rw [heq, List.contains_iff_mem.mpr hmem] at hfree
      cases hfree

theorem lookup_applyPair {base : GatewayConfig} {targets : List Target}
    (happly : applyPair decode build lookupHost h base generation pair = some (h', rt))
    (htargets : renderTargets pair.1 base.ingress.ingressClass = .ok targets) (name : String)
    : rt.upstreams.lookup name
        =
      ((staticUpstream base.toConfig name).or ((targets.reverse.find? fun t => upstreamName t == name).map
        buildUpstream)).map fun uc => UpstreamRt.fromConfig (resolveUpstream lookupHost uc) := by
  obtain ⟨routes, targets', -, htargets', -, hupstreams⟩ := applyPair_eq_some happly
  rw [htargets] at htargets'
  cases htargets'
  rw [hupstreams, AList.lookup_foldl_insert]
  unfold resolveConfig
  simp only [← List.map_reverse, List.find?_map, Function.comp_def, name_resolveUpstream,
    AList.lookup_empty, Option.or_none, Option.map_map]
  rw [find_buildIngressConfig, ← List.map_reverse, List.find?_map]
  rfl

theorem find_target {targets : List Target} {t : Target} (hmem : t ∈ targets)
    (hfree : ∀ t' ∈ targets, ¬Confusable t t' ∧ ¬Confusable t' t)
    : (targets.reverse.find? fun t' => upstreamName t' == upstreamName t) = some t := by
  cases hfind : targets.reverse.find? fun t' => upstreamName t' == upstreamName t with
  | none =>
    rw [List.find?_eq_none] at hfind
    have := hfind t (List.mem_reverse.mpr hmem)
    simp at this
  | some t' =>
    have hname := List.find?_some hfind
    have hmem' := List.mem_reverse.mp (List.mem_of_find?_eq_some hfind)
    rw [beq_iff_eq, upstreamName_eq_iff] at hname
    obtain ⟨hconf, hconf'⟩ := hfree t' hmem'
    obtain heq | hname | hname := hname
    . rw [heq]
    . exact absurd hname hconf'
    . exact absurd hname hconf

def ReachesBackend (lookupHost : String → Option (List SocketAddr)) (ingressClass : String)
    (snap : Snapshot Ingress) (rt : RuntimeSnapshot)
    : Prop :=
  ∀ route t, RouteFor snap ingressClass route t →
    ∃ up, rt.upstreams.lookup route.upstream = some up ∧ up.up.peers = servicePeers lookupHost t

def BackendsApart (ingressClass : String) (snap : Snapshot Ingress) : Prop :=
  ∀ route route' t t', RouteFor snap ingressClass route t → RouteFor snap ingressClass route' t' →
    t ≠ t' → route.upstream ≠ route'.upstream

theorem backendsApart_iff
    : BackendsApart ingressClass snap
        ↔
      ∀ t t', Rendered snap ingressClass t → Rendered snap ingressClass t' → ¬Confusable t t' := by
  constructor
  . rintro hapart t t' ⟨route, hroute⟩ ⟨route', hroute'⟩ hconf
    apply hapart route route' t t' hroute hroute' hconf.ne
    rw [upstream_of_routeFor hroute, upstream_of_routeFor hroute', upstreamName_eq_iff]
    exact .inr (.inl hconf)
  . intro hfree route route' t t' hroute hroute' hne heq
    rw [upstream_of_routeFor hroute, upstream_of_routeFor hroute', upstreamName_eq_iff] at heq
    obtain heq | hconf | hconf := heq
    . exact hne heq
    . exact hfree t t' ⟨route, hroute⟩ ⟨route', hroute'⟩ hconf
    . exact hfree t' t ⟨route', hroute'⟩ ⟨route, hroute⟩ hconf

theorem lookup_of_not_confusable {base : GatewayConfig}
    (happly : applyPair decode build lookupHost h base generation pair = some (h', rt))
    (hfree : ∀ t t', Rendered pair.1 base.ingress.ingressClass t → Rendered pair.1 base.ingress.ingressClass t' →
      ¬Confusable t t')
    {t : Target} (hrendered : Rendered pair.1 base.ingress.ingressClass t)
    : rt.upstreams.lookup (upstreamName t)
        =
      some (UpstreamRt.fromConfig (resolveUpstream lookupHost
        ((staticUpstream base.toConfig (upstreamName t)).getD (buildUpstream t)))) := by
  obtain ⟨routes, targets, hroutes, htargets, -, -⟩ := applyPair_eq_some happly
  have hmem (t : Target) : t ∈ targets ↔ Rendered pair.1 base.ingress.ingressClass t :=
    mem_renderTargets_iff_route hroutes htargets
  rw [lookup_applyPair happly htargets, find_target ((hmem t).mpr hrendered)]
  . cases staticUpstream base.toConfig (upstreamName t) with
    | none => rfl
    | some uc => rfl
  . intro t' ht'
    have hrendered' := (hmem t').mp ht'
    exact ⟨hfree t t' hrendered hrendered', hfree t' t hrendered' hrendered⟩

theorem applyPair_reaches_iff {base : GatewayConfig}
    (happly : applyPair decode build lookupHost h base generation pair = some (h', rt))
    : (∃ routes, rt.routes = base.routes ++ routes
        ∧ ∀ route, route ∈ routes ↔ ∃ t, RouteFor pair.1 base.ingress.ingressClass route t)
      ∧ (ReachesBackend lookupHost base.ingress.ingressClass pair.1 rt
            ∧ BackendsApart base.ingress.ingressClass pair.1
          ↔
        (∀ t t', Rendered pair.1 base.ingress.ingressClass t → Rendered pair.1 base.ingress.ingressClass t' →
          ¬Confusable t t')
        ∧ ∀ t, Rendered pair.1 base.ingress.ingressClass t →
          ∀ uc, staticUpstream base.toConfig (upstreamName t) = some uc →
          (Upstream.fromConfig (resolveUpstream lookupHost uc)).peers
            = servicePeers lookupHost t) := by
  obtain ⟨routes, targets, hroutes, htargets, hrt, -⟩ := applyPair_eq_some happly
  refine ⟨⟨routes, hrt, fun route => mem_renderRoutes hroutes⟩, ?_⟩
  rw [backendsApart_iff]
  constructor
  . rintro ⟨hreaches, hfree⟩
    refine ⟨hfree, ?_⟩
    rintro t ⟨route, hroute⟩ uc huc
    obtain ⟨up, hup, hpeers⟩ := hreaches route t hroute
    rw [upstream_of_routeFor hroute, lookup_of_not_confusable happly hfree ⟨route, hroute⟩] at hup
    cases hup
    rw [huc] at hpeers
    exact hpeers
  . rintro ⟨hfree, hstatic⟩
    refine ⟨?_, hfree⟩
    intro route t hroute
    rw [upstream_of_routeFor hroute, lookup_of_not_confusable happly hfree ⟨route, hroute⟩]
    refine ⟨_, rfl, ?_⟩
    cases huc : staticUpstream base.toConfig (upstreamName t) with
    | none => exact peers_resolveUpstream_buildUpstream t
    | some uc => exact hstatic t ⟨route, hroute⟩ uc huc

def defaultIngress (ns svc : String) : Ingress where
  metadata := { name := "web", nspace := ns }
  spec := {
    ingressClassName := some "openrusty"
    defaultBackend := some { service := some { name := svc, port := some { number := some 80 } } }
  }

def hostIngress (ns svc host : String) : Ingress where
  metadata := { name := "web", nspace := ns }
  spec := {
    ingressClassName := some "openrusty"
    rules := [{
      host := some host
      http := some [{
        path := "/"
        pathType := .pathPrefix
        backend := { service := some { name := svc, port := some { number := some 80 } } }
      }]
    }]
  }

def clusterHosts (name : String) : Option (List SocketAddr) :=
  if name = "b-c.a.svc.cluster.local:80" then
    some [{ ip := .v4 0x0a600001, port := 80 }]
  else
    some [{ ip := .v4 0x0a600002, port := 80 }]

def separateSnapshot : Snapshot Ingress :=
  Snapshot.replaceFromList [defaultIngress "a" "b-c", hostIngress "d" "c" "shop.test"] "7"

def confusedSnapshot : Snapshot Ingress :=
  Snapshot.replaceFromList [defaultIngress "a" "b-c", hostIngress "a-b" "c" "shop.test"] "7"

theorem separateSnapshot_not_confusable {routes : List RouteConfig}
    (hroutes : renderRoutes separateSnapshot "openrusty" = .ok routes) (t t' : Target)
    (ht : Rendered separateSnapshot "openrusty" t) (ht' : Rendered separateSnapshot "openrusty" t')
    : ¬Confusable t t' := by
  have heval : renderTargets separateSnapshot "openrusty"
      = .ok [⟨"a", "b-c", 80⟩, ⟨"d", "c", 80⟩] := by
    decide +kernel
  intro hconf
  have hmem := (mem_renderTargets_iff_route hroutes heval).mpr ht
  have hmem' := (mem_renderTargets_iff_route hroutes heval).mpr ht'
  have hname := upstreamName_eq_iff.mpr (.inr (.inl hconf))
  apply hconf.ne
  revert hname
  simp only [List.mem_cons, List.not_mem_nil, or_false] at hmem hmem'
  obtain rfl | rfl := hmem <;> obtain rfl | rfl := hmem' <;> decide

def plainGateway : GatewayConfig where
  server := { listen := { ip := .v4 0x7f000001, port := 8080 } }

def applyPlain (snap : Snapshot Ingress) : Option (HealthRegistry × RuntimeSnapshot) :=
  applyPair (fun _ => .error "Invalid padding") (fun _ => .error "no certificate") clusterHosts .new plainGateway 1
    (snap, Snapshot.replaceFromList [] "7")

theorem separateSnapshot_reaches
    : ∃ h' rt, applyPlain separateSnapshot = some (h', rt)
      ∧ ReachesBackend clusterHosts "openrusty" separateSnapshot rt
      ∧ BackendsApart "openrusty" separateSnapshot := by
  have hsome : (applyPlain separateSnapshot).isSome := by
    decide +kernel
  obtain ⟨⟨h', rt⟩, happly⟩ := Option.isSome_iff_exists.mp hsome
  refine ⟨h', rt, happly, (applyPair_reaches_iff happly).2.mpr ⟨?_, ?_⟩⟩
  . obtain ⟨routes, targets, hroutes, htargets, -, -⟩ := applyPair_eq_some happly
    apply separateSnapshot_not_confusable hroutes
  . intro t _ uc huc
    cases huc

theorem confusedSnapshot_misroutes
    : ∃ h' rt, applyPlain confusedSnapshot = some (h', rt)
      ∧ ¬ReachesBackend clusterHosts "openrusty" confusedSnapshot rt
      ∧ ¬BackendsApart "openrusty" confusedSnapshot := by
  have hsome : (applyPlain confusedSnapshot).isSome := by
    decide +kernel
  obtain ⟨⟨h', rt⟩, happly⟩ := Option.isSome_iff_exists.mp hsome
  obtain ⟨routes, targets, hroutes, htargets, -, -⟩ := applyPair_eq_some happly
  have heval : renderTargets confusedSnapshot "openrusty"
      = .ok [⟨"a", "b-c", 80⟩, ⟨"a-b", "c", 80⟩] := by
    decide +kernel
  obtain ⟨route, hroute⟩ := (mem_renderTargets_iff_route hroutes heval (t := ⟨"a", "b-c", 80⟩)).mp
    (by simp)
  obtain ⟨route', hroute'⟩ := (mem_renderTargets_iff_route hroutes heval (t := ⟨"a-b", "c", 80⟩)).mp
    (by simp)
  have hname : route.upstream = route'.upstream := by
    rw [upstream_of_routeFor hroute, upstream_of_routeFor hroute']
    decide
  refine ⟨h', rt, happly, ?_, ?_⟩
  . intro hreaches
    obtain ⟨up, hup, hpeers⟩ := hreaches _ _ hroute
    obtain ⟨up', hup', hpeers'⟩ := hreaches _ _ hroute'
    rw [hname, hup'] at hup
    cases hup
    rw [hpeers] at hpeers'
    revert hpeers'
    decide +kernel
  . intro hapart
    exact hapart _ _ _ _ hroute hroute' (by decide) hname

end OpenRusty
