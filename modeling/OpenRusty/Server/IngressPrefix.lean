import OpenRusty.K8s.Render.Lemmas
import OpenRusty.Lib.Join
import OpenRusty.Server.RouteLemmas

/-!
This module contains the meaning of an Ingress path of the type `Prefix`. The route that is rendered
for it compares the characters of the paths, as a `location` does, where the Ingress API compares the
elements between the slashes. `AgreesOn` tells on which request paths the two are the same.
-/

namespace OpenRusty

def elements (path : List Char) : List (List Char) := path.splitOn '/'

def withoutTrailingSlash (path : List Char) : List Char :=
  if path.getLast? = some '/' then path.dropLast else path

def ElementPrefix (p q : String) : Prop :=
  elements (withoutTrailingSlash p.toList) <+: elements q.toList

def AgreesOn (p q : String) : Prop :=
  if p.toList.getLast? = some '/' then
    q.toList ≠ withoutTrailingSlash p.toList
  else
    p.toList <+: q.toList → q = p ∨ p.toList ++ ['/'] <+: q.toList

section elements

variable {p q : String}

theorem withoutTrailingSlash_append (h : p.toList.getLast? = some '/')
    : withoutTrailingSlash p.toList ++ ['/'] = p.toList := by
  unfold withoutTrailingSlash
  rw [if_pos h]
  exact List.dropLast_append_getLast? '/' h

theorem elementPrefix_of_slash (h : p.toList.getLast? = some '/')
    : ElementPrefix p q
        ↔
      q.toList = withoutTrailingSlash p.toList ∨ p.toList <+: q.toList := by
  unfold ElementPrefix elements
  rw [List.splitOn_prefix_iff, withoutTrailingSlash_append h]

theorem elementPrefix_of_not_slash (h : p.toList.getLast? ≠ some '/')
    : ElementPrefix p q ↔ q = p ∨ p.toList ++ ['/'] <+: q.toList := by
  unfold ElementPrefix elements withoutTrailingSlash
  rw [if_neg h, List.splitOn_prefix_iff, String.toList_inj]

theorem not_prefix_withoutTrailingSlash (h : p.toList.getLast? = some '/')
    (hq : q.toList = withoutTrailingSlash p.toList)
    : ¬p.toList <+: q.toList := by
  intro hle
  have hlen := hle.length_le
  rw [← withoutTrailingSlash_append h, hq, List.length_append, List.length_singleton] at hlen
  omega

theorem prefix_iff_elementPrefix : (p.toList <+: q.toList ↔ ElementPrefix p q) ↔ AgreesOn p q := by
  unfold AgreesOn
  split
  . next h =>
    rw [elementPrefix_of_slash h]
    constructor
    . intro hiff hq
      apply not_prefix_withoutTrailingSlash h hq
      exact hiff.mpr (.inl hq)
    . intro hne
      rw [or_iff_right hne]
  . next h =>
    rw [elementPrefix_of_not_slash h]
    constructor
    . intro hiff
      exact hiff.mp
    . intro himp
      refine ⟨himp, ?_⟩
      rintro (rfl | hle)
      . apply List.prefix_refl
      . exact (List.prefix_append _ _).trans hle

end elements

section route

variable {host : Option String} {q : String} {r : RouteConfig}

theorem matchRoute_singleton : matchRoute [r] host q = some 0 ↔ Matches host q r := by
  cases matchRoute_spec [r] host q with
  | inl h =>
    have hnot := h.2 r (by simp)
    simp [h.1, hnot]
  | inr h =>
    obtain ⟨i, r', hi, hr', hmatch, -⟩ := h
    obtain ⟨hlt, rfl⟩ := List.getElem?_eq_some_iff.mp hr'
    have hzero : i = 0 := by
      simpa using hlt
    subst hzero
    simpa [hi] using hmatch

theorem matches_prefix (hexact : r.exact = false) (hhost : hostMatches r.host host = true)
    : Matches host q r ↔ r.pathPrefix.toList <+: q.toList := by
  unfold Matches pathMatches exactHit prefixHit
  simp [hexact, hhost, startsWith_iff]

variable {snap : Snapshot Ingress} {ingressClass : String} {routes : List RouteConfig}
variable {x : String × Ingress} {rule : IngressRule} {path : HttpIngressPath}

theorem prefixRoute_matches (h : renderRoutes snap ingressClass = .ok routes)
    (hx : x ∈ owned snap ingressClass) (hrule : rule ∈ x.2.spec.rules)
    (hpath : path ∈ rule.http.getD []) (htype : path.pathType = .pathPrefix)
    : ∃ t, backendTarget x.1 x.2.metadata.nspace path.backend = .ok t
      ∧ renderPath rule path t ∈ routes
      ∧ ∀ host, hostMatches (renderPath rule path t).host host = true → ∀ q,
        (matchRoute [renderPath rule path t] host q = some 0 ↔ path.path.toList <+: q.toList)
        ∧ ((matchRoute [renderPath rule path t] host q = some 0 ↔ ElementPrefix path.path q)
            ↔
          AgreesOn path.path q) := by
  obtain ⟨hslash, t, ht⟩ := path_of_renderRoutes h hx hrule hpath
  refine ⟨t, ht, ?_, ?_⟩
  . rw [mem_renderRoutes h]
    exact ⟨t, x, hx, .inr ⟨rule, hrule, path, hpath, hslash, ht, rfl⟩⟩
  . intro host hhost q
    have hexact : (renderPath rule path t).exact = false := by
      simp [renderPath, htype]
    have hmatch : matchRoute [renderPath rule path t] host q = some 0
        ↔ path.path.toList <+: q.toList := by
      rw [matchRoute_singleton, matches_prefix hexact hhost]
      rfl
    refine ⟨hmatch, ?_⟩
    rw [hmatch]
    apply prefix_iff_elementPrefix

def fooPath : HttpIngressPath where
  path := "/foo"
  pathType := .pathPrefix
  backend := { service := some { name := "web", port := some { number := some 80 } } }

def fooRule : IngressRule where
  host := some "Shop.Test"
  http := some [fooPath]

def fooIngress : Ingress where
  metadata := { name := "web", nspace := "a" }
  spec := { ingressClassName := some "openrusty", rules := [fooRule] }

def fooSnapshot : Snapshot Ingress := Snapshot.replaceFromList [fooIngress] "7"

def fooRoute : RouteConfig :=
  { pathPrefix := "/foo", host := some "shop.test", upstream := "ing-a-web-80" }

theorem renderRoutes_fooSnapshot : renderRoutes fooSnapshot "openrusty" = .ok [fooRoute] := by
  decide +kernel

theorem prefixRoute_matches_foo
    : ∃ t, backendTarget "ingress a/web" "a" fooPath.backend = .ok t
      ∧ renderPath fooRule fooPath t ∈ [fooRoute]
      ∧ ∀ host, hostMatches (renderPath fooRule fooPath t).host host = true → ∀ q,
        (matchRoute [renderPath fooRule fooPath t] host q = some 0 ↔ "/foo".toList <+: q.toList)
        ∧ ((matchRoute [renderPath fooRule fooPath t] host q = some 0 ↔ ElementPrefix "/foo" q)
            ↔
          AgreesOn "/foo" q) := by
  have hx : ("ingress a/web", fooIngress) ∈ owned fooSnapshot "openrusty" := by decide +kernel
  have hrule : fooRule ∈ fooIngress.spec.rules := by decide
  have hpath : fooPath ∈ fooRule.http.getD [] := by decide
  exact prefixRoute_matches renderRoutes_fooSnapshot hx hrule hpath rfl

theorem prefixRoute_captures_foobar
    : renderRoutes fooSnapshot "openrusty" = .ok [fooRoute]
      ∧ matchRoute [fooRoute] (some "shop.test") "/foobar" = some 0
      ∧ ¬ElementPrefix "/foo" "/foobar" := by
  refine ⟨?_, ?_, ?_⟩
  . decide +kernel
  . decide +kernel
  . rw [elementPrefix_of_not_slash (by decide)]
    decide

end route

end OpenRusty
