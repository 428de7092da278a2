import OpenRusty.Core.Num
import OpenRusty.K8s.Render.Basic
import OpenRusty.Lib.Fallible
import OpenRusty.Lib.Join

/-!
This module contains the theory of the rendering: which routes and targets come out of a snapshot, and
when two targets get the same upstream name.
-/

namespace OpenRusty

section upstreamName

theorem dash_notMem_toString (n : Nat) : '-' ∉ (toString n).toList := by
  intro h
  rw [toList_toString] at h
  have := Nat.isDigit_of_mem_toDigits (by decide) (by decide) h
  revert this
  decide

def Confusable (t t' : Target) : Prop :=
  t.port = t'.port ∧ ∃ c, t'.ns = t.ns ++ "-" ++ c ∧ t.svc = c ++ "-" ++ t'.svc

theorem toList_upstreamName (t : Target)
    : (upstreamName t).toList
        =
      ("ing-".toList ++ (t.ns.toList ++ '-' :: t.svc.toList)) ++ '-' :: (toString t.port).toList := by
  simp [upstreamName]

theorem confusable_iff {t t' : Target}
    : Confusable t t'
        ↔
      t.port = t'.port
        ∧ ∃ e, t'.ns.toList = t.ns.toList ++ '-' :: e ∧ t.svc.toList = e ++ '-' :: t'.svc.toList := by
  unfold Confusable
  simp only [← String.toList_inj, String.toList_append]
  constructor
  . rintro ⟨hport, c, hns, hsvc⟩
    refine ⟨hport, c.toList, ?_, ?_⟩
    . simpa using hns
    . simpa using hsvc
  . rintro ⟨hport, e, hns, hsvc⟩
    refine ⟨hport, String.ofList e, ?_, ?_⟩
    . simpa using hns
    . simpa using hsvc

theorem target_ext_iff {t t' : Target}
    : t = t' ↔ t.port = t'.port ∧ t.ns.toList = t'.ns.toList ∧ t.svc.toList = t'.svc.toList := by
  cases t
  cases t'
  simp only [Target.mk.injEq, String.toList_inj]
  constructor
  . rintro ⟨hns, hsvc, hport⟩
    exact ⟨hport, hns, hsvc⟩
  . rintro ⟨hport, hns, hsvc⟩
    exact ⟨hns, hsvc, hport⟩

theorem upstreamName_eq_iff {t t' : Target}
    : upstreamName t = upstreamName t' ↔ t = t' ∨ Confusable t t' ∨ Confusable t' t := by
  have hport : (toString t.port).toList = (toString t'.port).toList ↔ t.port = t'.port := by
    constructor
    . apply toString_injective
    . intro h
      rw [h]
  rw [← String.toList_inj, toList_upstreamName, toList_upstreamName]
  rw [List.append_cons_inj_of_free (dash_notMem_toString _) (dash_notMem_toString _)]
  rw [List.append_cancel_left_eq, List.append_cons_eq_iff, hport]
  rw [target_ext_iff, confusable_iff, confusable_iff]
  constructor
  . rintro ⟨h | h | h, hport⟩
    . exact .inl ⟨hport, h⟩
    . exact .inr (.inl ⟨hport, h⟩)
    . exact .inr (.inr ⟨hport.symm, h⟩)
  . rintro (⟨hport, h⟩ | ⟨hport, h⟩ | ⟨hport, h⟩)
    . exact ⟨.inl h, hport⟩
    . exact ⟨.inr (.inl h), hport⟩
    . exact ⟨.inr (.inr h), hport.symm⟩

end upstreamName

def RouteFor (snap : Snapshot Ingress) (ingressClass : String) (route : RouteConfig) (t : Target)
    : Prop :=
  ∃ x ∈ owned snap ingressClass,
    (∃ backend, x.2.spec.defaultBackend = some backend
      ∧ backendTarget x.1 x.2.metadata.nspace backend = .ok t ∧ route = renderDefault t)
    ∨ ∃ rule ∈ x.2.spec.rules, ∃ path ∈ rule.http.getD [], path.path.toList.head? = some '/'
      ∧ backendTarget x.1 x.2.metadata.nspace path.backend = .ok t ∧ route = renderPath rule path t

theorem mem_renderRule {owner ns : String} {rule : IngressRule} {routes : List RouteConfig}
    (h : renderRule owner ns rule = .ok routes) {route : RouteConfig}
    : route ∈ routes
        ↔
      ∃ path ∈ rule.http.getD [], path.path.toList.head? = some '/'
        ∧ ∃ t, backendTarget owner ns path.backend = .ok t ∧ route = renderPath rule path t := by
  unfold renderRule at h
  rw [Except.mem_of_mapM h]
  constructor
  . rintro ⟨path, hpath, hok⟩
    split at hok
    . next hslash =>
      obtain ⟨t, ht, rfl⟩ := Except.map_eq_ok.mp hok
      exact ⟨path, hpath, hslash, t, ht, rfl⟩
    . cases hok
  . rintro ⟨path, hpath, hslash, t, ht, rfl⟩
    refine ⟨path, hpath, ?_⟩
    rw [if_pos hslash, ht]
    rfl

theorem renderIngress_eq_ok {x : String × Ingress} {routes : List RouteConfig}
    (h : renderIngress x = .ok routes)
    : ∃ default rules, (x.2.spec.defaultBackend.toList.mapM fun backend =>
          (backendTarget x.1 x.2.metadata.nspace backend).map renderDefault) = .ok default
        ∧ x.2.spec.rules.mapM (renderRule x.1 x.2.metadata.nspace) = .ok rules
        ∧ routes = default ++ rules.flatten := by
  simp only [renderIngress, Except.bind_eq_ok] at h
  rcases h with ⟨default, hdefault, rules, hrules, h⟩
  cases h
  exact ⟨default, rules, hdefault, hrules, rfl⟩

theorem mem_renderIngress {x : String × Ingress} {routes : List RouteConfig}
    (h : renderIngress x = .ok routes) {route : RouteConfig}
    : route ∈ routes
        ↔
      ∃ t, (∃ backend, x.2.spec.defaultBackend = some backend
          ∧ backendTarget x.1 x.2.metadata.nspace backend = .ok t ∧ route = renderDefault t)
        ∨ ∃ rule ∈ x.2.spec.rules, ∃ path ∈ rule.http.getD [], path.path.toList.head? = some '/'
          ∧ backendTarget x.1 x.2.metadata.nspace path.backend = .ok t
          ∧ route = renderPath rule path t := by
  obtain ⟨default, rules, hdefault, hrules, rfl⟩ := renderIngress_eq_ok h
  rw [List.mem_append, Except.mem_of_mapM hdefault, List.mem_flatten]
  constructor
  . rintro (⟨backend, hbackend, hok⟩ | ⟨l, hl, hroute⟩)
    . obtain ⟨t, ht, rfl⟩ := Except.map_eq_ok.mp hok
      exact ⟨t, .inl ⟨backend, by simpa using hbackend, ht, rfl⟩⟩
    . obtain ⟨rule, hrule, hok⟩ := (Except.mem_of_mapM hrules).mp hl
      obtain ⟨path, hpath, hslash, t, ht, rfl⟩ := (mem_renderRule hok).mp hroute
      exact ⟨t, .inr ⟨rule, hrule, path, hpath, hslash, ht, rfl⟩⟩
  . rintro ⟨t, ⟨backend, hbackend, ht, rfl⟩ | ⟨rule, hrule, path, hpath, hslash, ht, rfl⟩⟩
    . left
      refine ⟨backend, by simpa using hbackend, ?_⟩
      rw [ht]
      rfl
    . right
      obtain ⟨l, hl⟩ := Except.ok_of_mapM hrules hrule
      refine ⟨l, (Except.mem_of_mapM hrules).mpr ⟨rule, hrule, hl⟩, ?_⟩
      exact (mem_renderRule hl).mpr ⟨path, hpath, hslash, t, ht, rfl⟩

theorem mem_renderRoutes {snap : Snapshot Ingress} {ingressClass : String}
    {routes : List RouteConfig} (h : renderRoutes snap ingressClass = .ok routes)
    {route : RouteConfig}
    : route ∈ routes ↔ ∃ t, RouteFor snap ingressClass route t := by
  obtain ⟨ls, hls, rfl⟩ := Except.map_eq_ok.mp h
  rw [List.mem_flatten]
  constructor
  . rintro ⟨l, hl, hroute⟩
    obtain ⟨x, hx, hok⟩ := (Except.mem_of_mapM hls).mp hl
    obtain ⟨t, ht⟩ := (mem_renderIngress hok).mp hroute
    exact ⟨t, x, hx, ht⟩
  . rintro ⟨t, x, hx, ht⟩
    obtain ⟨l, hl⟩ := Except.ok_of_mapM hls hx
    refine ⟨l, (Except.mem_of_mapM hls).mpr ⟨x, hx, hl⟩, ?_⟩
    exact (mem_renderIngress hl).mpr ⟨t, ht⟩

theorem mem_renderTargets {snap : Snapshot Ingress} {ingressClass : String} {targets : List Target}
    (h : renderTargets snap ingressClass = .ok targets) {t : Target}
    : t ∈ targets
        ↔
      ∃ x ∈ owned snap ingressClass, ∃ backend ∈ backends x.2,
        backendTarget x.1 x.2.metadata.nspace backend = .ok t := by
  obtain ⟨ls, hls, rfl⟩ := Except.map_eq_ok.mp h
  rw [List.mem_insertionSort, List.mem_dedup, List.mem_flatten]
  constructor
  . rintro ⟨l, hl, ht⟩
    obtain ⟨x, hx, hok⟩ := (Except.mem_of_mapM hls).mp hl
    exact ⟨x, hx, (Except.mem_of_mapM hok).mp ht⟩
  . rintro ⟨x, hx, ht⟩
    obtain ⟨l, hl⟩ := Except.ok_of_mapM hls hx
    refine ⟨l, (Except.mem_of_mapM hls).mpr ⟨x, hx, hl⟩, ?_⟩
    exact (Except.mem_of_mapM hl).mpr ht

theorem nodup_renderTargets {snap : Snapshot Ingress} {ingressClass : String}
    {targets : List Target} (h : renderTargets snap ingressClass = .ok targets)
    : targets.Nodup := by
  obtain ⟨ls, hls, rfl⟩ := Except.map_eq_ok.mp h
  rw [(List.perm_insertionSort _ _).nodup_iff]
  apply List.nodup_dedup

theorem path_of_renderRoutes {snap : Snapshot Ingress} {ingressClass : String}
    {routes : List RouteConfig} (h : renderRoutes snap ingressClass = .ok routes)
    {x : String × Ingress} (hx : x ∈ owned snap ingressClass) {rule : IngressRule}
    (hrule : rule ∈ x.2.spec.rules) {path : HttpIngressPath} (hpath : path ∈ rule.http.getD [])
    : path.path.toList.head? = some '/'
      ∧ ∃ t, backendTarget x.1 x.2.metadata.nspace path.backend = .ok t := by
  obtain ⟨ls, hls, -⟩ := Except.map_eq_ok.mp h
  obtain ⟨l, hl⟩ := Except.ok_of_mapM hls hx
  obtain ⟨default, rules, -, hrules, -⟩ := renderIngress_eq_ok hl
  obtain ⟨l', hl'⟩ := Except.ok_of_mapM hrules hrule
  obtain ⟨route, hroute⟩ := Except.ok_of_mapM hl' hpath
  split at hroute
  . next hslash =>
    rcases Except.map_eq_ok.mp hroute with ⟨t, ht, -⟩
    exact ⟨hslash, t, ht⟩
  . cases hroute

theorem mem_renderTargets_iff_route {snap : Snapshot Ingress} {ingressClass : String}
    {routes : List RouteConfig} {targets : List Target}
    (hroutes : renderRoutes snap ingressClass = .ok routes)
    (htargets : renderTargets snap ingressClass = .ok targets) {t : Target}
    : t ∈ targets ↔ ∃ route, RouteFor snap ingressClass route t := by
  rw [mem_renderTargets htargets]
  constructor
  . rintro ⟨x, hx, backend, hbackend, ht⟩
    simp only [backends, List.mem_append, Option.mem_toList, List.mem_flatMap,
      List.mem_map] at hbackend
    obtain hdefault | ⟨rule, hrule, path, hpath, rfl⟩ := hbackend
    . exact ⟨renderDefault t, x, hx, .inl ⟨backend, hdefault, ht, rfl⟩⟩
    . have hslash := (path_of_renderRoutes hroutes hx hrule hpath).1
      exact ⟨renderPath rule path t, x, hx, .inr ⟨rule, hrule, path, hpath, hslash, ht, rfl⟩⟩
  . rintro ⟨route, x, hx, ⟨backend, hbackend, ht, -⟩ | ⟨rule, hrule, path, hpath, -, ht, -⟩⟩
    . refine ⟨x, hx, backend, ?_, ht⟩
      simp [backends, hbackend]
    . refine ⟨x, hx, path.backend, ?_, ht⟩
      simp only [backends, List.mem_append, List.mem_flatMap, List.mem_map]
      exact .inr ⟨rule, hrule, path, hpath, rfl⟩

theorem upstream_of_routeFor {snap : Snapshot Ingress} {ingressClass : String} {route : RouteConfig}
    {t : Target} (h : RouteFor snap ingressClass route t)
    : route.upstream = upstreamName t := by
  obtain ⟨x, -, ⟨backend, -, -, rfl⟩ | ⟨rule, -, path, -, -, -, rfl⟩⟩ := h
  . rfl
  . rfl

end OpenRusty
