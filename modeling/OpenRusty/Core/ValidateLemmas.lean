import OpenRusty.Core.Validate

/-!
This module contains the specification of the validation: which rules a configuration that passes is
known to meet, without the order of the checks and without their messages.
-/

namespace OpenRusty

@[simp]
theorem require_eq_ok {c : Bool} {message : String} : require c message = .ok () ↔ c = true := by
  apply Except.ensure_eq_ok

namespace RouteConfig

structure Valid (upstreams : List UpstreamConfig) (route : RouteConfig) : Prop where
  path : startsWith route.pathPrefix "/" = true
  host : ∀ h, route.host = some h → isBlank h = false
  upstream : route.upstream ∈ upstreams.map UpstreamConfig.name

theorem validate_eq_ok {upstreams : List UpstreamConfig} {i : Nat} {route : RouteConfig}
    : route.validate upstreams i = .ok () ↔ route.Valid upstreams := by
  have hany : (upstreams.any fun u => u.name == route.upstream) = true
      ↔ route.upstream ∈ upstreams.map UpstreamConfig.name := by
    simp
  unfold validate
  cases hhost : route.host with
  | none =>
    simp only [Except.unit_bind_eq_ok, require_eq_ok, hany]
    constructor
    . intro h
      exact ⟨h.1, by simp [hhost], h.2⟩
    . intro h
      exact ⟨h.path, h.upstream⟩
  | some host =>
    simp only [Except.unit_bind_eq_ok, require_eq_ok, hany, Bool.not_eq_true']
    constructor
    . intro h
      refine ⟨h.1, ?_, h.2.2⟩
      intro h' heq
      rw [hhost] at heq
      cases heq
      exact h.2.1
    . intro h
      exact ⟨h.path, h.host host hhost, h.upstream⟩

end RouteConfig

namespace Config

structure Valid (cfg : Config) : Prop where
  upstreams : cfg.routes ≠ [] → cfg.upstreams ≠ []
  distinct : (cfg.upstreams.map UpstreamConfig.name).Nodup
  named : ∀ up ∈ cfg.upstreams, up.name ≠ ""
  upstream : ∀ up ∈ cfg.upstreams, up.validate = .ok ()
  route : ∀ route ∈ cfg.routes, route.Valid cfg.upstreams

theorem validateUpstreams_eq_ok {upstreams : List UpstreamConfig}
    : validateUpstreams upstreams = .ok ()
        ↔
      (upstreams.map UpstreamConfig.name).Nodup
        ∧ ∀ up ∈ upstreams, up.name ≠ "" ∧ up.validate = .ok () := by
  unfold validateUpstreams
  rw [Except.forFresh_eq_ok]
  simp

theorem validateRoutes_eq_ok {upstreams : List UpstreamConfig} {routes : List RouteConfig}
    : Except.forEach (RouteConfig.validate upstreams) 0 routes = .ok ()
      ↔ ∀ route ∈ routes, route.Valid upstreams := by
  rw [Except.forEach_eq_ok]
  simp only [RouteConfig.validate_eq_ok, List.mem_iff_getElem?]
  constructor
  . rintro h route ⟨i, hi⟩
    apply h i route hi
  . intro h i route hi
    apply h route ⟨i, hi⟩

theorem validate_eq_ok {cfg : Config} : cfg.validate = .ok () ↔ cfg.Valid := by
  unfold validate
  simp only [Except.unit_bind_eq_ok, require_eq_ok, validateUpstreams_eq_ok, validateRoutes_eq_ok]
  constructor
  . intro h
    apply Valid.mk
    . intro hroutes hupstreams
      simp [hroutes, hupstreams] at h
    . exact h.2.1.1
    . intro up hup
      exact (h.2.1.2 up hup).1
    . intro up hup
      exact (h.2.1.2 up hup).2
    . exact h.2.2
  . intro h
    refine ⟨?_, ⟨h.distinct, fun up hup => ⟨h.named up hup, h.upstream up hup⟩⟩, h.route⟩
    cases hroutes : cfg.routes with
    | nil => simp
    | cons route routes =>
      have := h.upstreams (by simp [hroutes])
      simp [this]

end Config

theorem GatewayConfig.validate_eq_ok {env : ConfigEnv} {cfg : GatewayConfig}
    : cfg.validate env = .ok () ↔ cfg.validateSections env = .ok () ∧ cfg.toConfig.Valid := by
  unfold validate
  rw [Except.unit_bind_eq_ok, Config.validate_eq_ok]

end OpenRusty
