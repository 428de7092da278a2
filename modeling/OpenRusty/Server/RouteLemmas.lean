import Mathlib.Data.List.MinMax
import OpenRusty.K8s.Render.Basic
import OpenRusty.Server.Route

/-!
This module contains the proof that the merge of static and rendered routes makes the choice of a route
independent of their order: two routes that match the same request and that neither host nor path
tells apart have the same key, and the merge rejects these.
-/

namespace OpenRusty

section normalizeHost

theorem isWhiteSpace_toLower (c : Char) : isWhiteSpace c.toLower = isWhiteSpace c := by
  unfold Char.toLower
  split
  . next h =>
    have hupper : 65 ≤ c.val.toNat ∧ c.val.toNat ≤ 90 := h
    have hlower : (c.val + ('a'.val - 'A'.val)).toNat = c.val.toNat + 32 := by
      rw [UInt32.toNat_add]
      have : ('a'.val - 'A'.val).toNat = 32 := by decide
      omega
    simp only [isWhiteSpace, Char.toNat, hlower, decide_eq_decide]
    omega
  . rfl

theorem normalizeHost_eq (host : String) : normalizeHost host = trim (toAsciiLowercase host) := by
  unfold normalizeHost trim toAsciiLowercase
  have hcomp : (isWhiteSpace ∘ Char.toLower) = isWhiteSpace := by
    funext c
    apply isWhiteSpace_toLower
  rw [String.toList_ofList]
  simp [List.rdropWhile, List.dropWhile_map, ← List.map_reverse, hcomp]

theorem normalizeHost_congr {a b : String} (h : eqIgnoreAsciiCase a b = true)
    : normalizeHost a = normalizeHost b := by
  rw [normalizeHost_eq, normalizeHost_eq, eqIgnoreAsciiCase_iff.mp h]

end normalizeHost

section merge

variable {label : String} {i : Nat} {routes : List RouteConfig}
variable {seen seen' : AList fun _ : RouteKey => String}

theorem checkRoutes_cons_eq_ok {route : RouteConfig}
    : checkRoutes label i (route :: routes) seen = .ok seen'
        ↔
      RouteKey.of route ∉ seen
        ∧ checkRoutes label (i + 1) routes (seen.insert (RouteKey.of route)
            (label ++ "[" ++ toString i ++ "]")) = .ok seen' := by
  rw [checkRoutes]
  cases hseen : seen.lookup (RouteKey.of route) with
  | none =>
    have := AList.lookup_eq_none.mp hseen
    simp [this]
  | some there =>
    have : RouteKey.of route ∈ seen := by
      rw [← AList.lookup_isSome, hseen]
      rfl
    simp [this]

theorem checkRoutes_eq_ok (h : checkRoutes label i routes seen = .ok seen')
    : (routes.map RouteKey.of).Nodup
      ∧ (∀ key ∈ routes.map RouteKey.of, key ∉ seen)
      ∧ ∀ key, key ∈ seen' ↔ key ∈ seen ∨ key ∈ routes.map RouteKey.of := by
  induction routes generalizing i seen with
  | nil =>
    cases h
    simp
  | cons route routes ih =>
    rw [checkRoutes_cons_eq_ok] at h
    rcases ih h.2 with ⟨hnodup, hfree, hmem⟩
    simp only [AList.mem_insert, not_or] at hfree hmem
    refine ⟨?_, ?_, ?_⟩
    . rw [List.map_cons, List.nodup_cons]
      refine ⟨?_, hnodup⟩
      intro hroute
      apply (hfree _ hroute).1
      rfl
    . intro key hkey
      rw [List.map_cons, List.mem_cons] at hkey
      cases hkey with
      | inl heq =>
        rw [heq]
        apply h.1
      | inr hkey => apply (hfree key hkey).2
    . intro key
      rw [hmem, List.map_cons, List.mem_cons, or_assoc, or_left_comm]

theorem exists_checkRoutes_eq_ok (hnodup : (routes.map RouteKey.of).Nodup)
    (hfree : ∀ key ∈ routes.map RouteKey.of, key ∉ seen)
    : ∃ seen', checkRoutes label i routes seen = .ok seen' := by
  induction routes generalizing i seen with
  | nil => exact ⟨seen, rfl⟩
  | cons route routes ih =>
    rw [List.map_cons, List.nodup_cons] at hnodup
    simp only [checkRoutes_cons_eq_ok, exists_and_left]
    refine ⟨hfree _ (by simp), ?_⟩
    apply ih hnodup.2
    intro key hkey hmem
    rw [AList.mem_insert] at hmem
    cases hmem with
    | inl heq =>
      apply hnodup.1
      rw [← heq]
      assumption
    | inr hmem =>
      apply hfree key _ hmem
      simp [hkey]

theorem merge_eq_ok {staticRoutes rendered merged : List RouteConfig}
    : merge staticRoutes rendered = .ok merged
        ↔
      merged = staticRoutes ++ rendered ∧ (merged.map RouteKey.of).Nodup := by
  unfold merge
  constructor
  . intro h
    simp only [bind, Except.bind, pure, Except.pure] at h
    split at h
    . cases h
    . next seen hstatic =>
      split at h
      . cases h
      . next hrendered =>
        cases h
        refine ⟨rfl, ?_⟩
        rcases checkRoutes_eq_ok hstatic with ⟨hnodup, -, hmem⟩
        rcases checkRoutes_eq_ok hrendered with ⟨hnodup', hfree, -⟩
        rw [List.map_append, List.nodup_append']
        refine ⟨hnodup, hnodup', ?_⟩
        intro key hkey hkey'
        apply hfree key hkey'
        rw [hmem]
        right
        assumption
  . rintro ⟨rfl, h⟩
    rw [List.map_append, List.nodup_append'] at h
    rcases h with ⟨hnodup, hnodup', hdisjoint⟩
    have hstatic : ∃ seen, checkRoutes "static" 0 staticRoutes ∅ = .ok seen := by
      apply exists_checkRoutes_eq_ok hnodup
      simp
    rcases hstatic with ⟨seen, hstatic⟩
    have hfree : ∀ key ∈ rendered.map RouteKey.of, key ∉ seen := by
      intro key hkey hmem
      rw [(checkRoutes_eq_ok hstatic).2.2] at hmem
      cases hmem with
      | inl hmem => cases hmem
      | inr hmem => apply hdisjoint hmem hkey
    have hrendered : ∃ seen', checkRoutes "rendered" 0 rendered seen = .ok seen' := by
      apply exists_checkRoutes_eq_ok hnodup' hfree
    rcases hrendered with ⟨seen', hrendered⟩
    simp [bind, Except.bind, pure, Except.pure, hstatic, hrendered]

end merge

section pathInClass

variable {path : String} {cands : List (RouteConfig × Nat)}

def exactHit (path : String) (r : RouteConfig) : Bool := r.exact && r.pathPrefix == path

def prefixHit (path : String) (r : RouteConfig) : Bool := !r.exact && startsWith path r.pathPrefix

theorem startsWith_self (s : String) : startsWith s s = true := by
  apply startsWith_iff.mpr
  apply List.prefix_refl

theorem prefixHit_eq (path : String) (r : RouteConfig)
    : prefixHit path r = (!r.exact && (path == r.pathPrefix || startsWith path r.pathPrefix)) := by
  unfold prefixHit
  cases h : path == r.pathPrefix with
  | true =>
    rw [beq_iff_eq] at h
    rw [h, startsWith_self]
    simp
  | false => simp

theorem exact_push (hits : PathHits) (x : RouteConfig × Nat)
    : (hits.push path x).exact
        =
      hits.exact.or (if exactHit path x.1 then some x.2 else none) := by
  rcases x with ⟨r, i⟩
  cases hexact : r.exact with
  | true =>
    cases hfirst : hits.exact with
    | none =>
      cases hpath : r.pathPrefix == path with
      | true => simp [PathHits.push, exactHit, hexact, hpath, hfirst]
      | false => simp [PathHits.push, exactHit, hexact, hpath, hfirst]
    | some j => simp [PathHits.push, hexact, hfirst]
  | false =>
    simp [PathHits.push, exactHit, hexact]
    split
    . split
      . split
        . simp
        . simp
      . simp
    . simp

theorem bestPrefix_push (hits : PathHits) (x : RouteConfig × Nat)
    : (hits.push path x).bestPrefix
        =
      if prefixHit path x.1 ∧ ∀ y ∈ hits.bestPrefix, y.2 < len x.1.pathPrefix then
        some (x.2, len x.1.pathPrefix)
      else
        hits.bestPrefix := by
  rcases x with ⟨r, i⟩
  rw [prefixHit_eq]
  cases hexact : r.exact with
  | true =>
    simp [PathHits.push, hexact]
    split
    . rfl
    . rfl
  | false =>
    cases hhit : path == r.pathPrefix || startsWith path r.pathPrefix with
    | false => simp [PathHits.push, hexact, hhit]
    | true =>
      cases hbest : hits.bestPrefix with
      | none => simp [PathHits.push, hexact, hhit, hbest]
      | some y =>
        by_cases hlen : len r.pathPrefix ≤ y.2
        . simp [PathHits.push, hexact, hhit, hbest, hlen, Nat.not_lt.mpr hlen]
        . simp [PathHits.push, hexact, hhit, hbest, hlen, Nat.lt_of_not_le hlen]

theorem exact_foldl_push (path : String) (cands : List (RouteConfig × Nat))
    : (cands.foldl (PathHits.push path) {}).exact
        =
      (cands.find? fun x => exactHit path x.1).map Prod.snd := by
  induction cands using List.reverseRecOn with
  | nil => rfl
  | append_singleton cands x ih =>
    rw [List.foldl_append, List.find?_append, Option.map_or, ← ih]
    simp only [List.foldl_cons, List.foldl_nil, exact_push, List.find?_singleton]
    split
    . rfl
    . rfl

theorem bestPrefix_foldl_push (path : String) (cands : List (RouteConfig × Nat))
    : (cands.foldl (PathHits.push path) {}).bestPrefix
        =
      ((cands.filter fun x => prefixHit path x.1).argmax fun x => len x.1.pathPrefix).map fun x =>
        (x.2, len x.1.pathPrefix) := by
  induction cands using List.reverseRecOn with
  | nil => rfl
  | append_singleton cands x ih =>
    rw [List.foldl_append, List.filter_append, List.foldl_cons, List.foldl_nil, bestPrefix_push, ih]
    cases hhit : prefixHit path x.1 with
    | false => simp [hhit]
    | true =>
      rw [List.filter_singleton, hhit]
      dsimp
      rw [List.argmax_concat]
      cases (cands.filter fun x => prefixHit path x.1).argmax fun x => len x.1.pathPrefix with
      | none => simp
      | some y =>
        by_cases hlen : len y.1.pathPrefix < len x.1.pathPrefix
        . simp [hlen]
        . simp [hlen]

def pathMatches (path : String) (r : RouteConfig) : Bool := exactHit path r || prefixHit path r

def PathOutranks (a b : RouteConfig) : Prop :=
  a.exact = true ∧ b.exact = false
    ∨ a.exact = false ∧ b.exact = false ∧ len b.pathPrefix < len a.pathPrefix

theorem pathInClass_eq_none
    : pathInClass cands path = none ↔ ∀ x ∈ cands, pathMatches path x.1 = false := by
  unfold pathInClass
  dsimp
  rw [exact_foldl_push, bestPrefix_foldl_push]
  simp only [Option.or_eq_none_iff, Option.map_eq_none_iff, List.find?_eq_none, List.argmax_eq_none,
    List.filter_eq_nil_iff, pathMatches, Bool.or_eq_false_iff, Bool.not_eq_true]
  constructor
  . intro h x hx
    exact ⟨h.1 x hx, h.2 x hx⟩
  . intro h
    exact ⟨fun x hx => (h x hx).1, fun x hx => (h x hx).2⟩

theorem pathInClass_eq_some {i : Nat} (h : pathInClass cands path = some i)
    : ∃ r, (r, i) ∈ cands ∧ pathMatches path r = true
      ∧ ∀ x ∈ cands, pathMatches path x.1 = true → ¬PathOutranks x.1 r := by
  unfold pathInClass at h
  dsimp at h
  rw [exact_foldl_push, bestPrefix_foldl_push] at h
  cases hfind : cands.find? fun x => exactHit path x.1 with
  | some y =>
    rw [hfind] at h
    cases h
    have hhit := List.find?_some hfind
    refine ⟨y.1, List.mem_of_find?_eq_some hfind, by simp [pathMatches, hhit], ?_⟩
    intro x _ _ houtranks
    unfold exactHit at hhit
    unfold PathOutranks at houtranks
    simp_all
  | none =>
    rw [List.find?_eq_none] at hfind
    simp only [List.find?_eq_none.mpr hfind, Option.map_none, Option.none_or, Option.map_map,
      Option.map_eq_some_iff] at h
    rcases h with ⟨y, hy, rfl⟩
    have hmem := List.mem_filter.mp (List.argmax_mem hy)
    refine ⟨y.1, hmem.1, by simp [pathMatches, hmem.2], ?_⟩
    intro x hx hmatch houtranks
    have hnot := hfind x hx
    have hhit : prefixHit path x.1 = true := by
      simpa [pathMatches, hnot] using hmatch
    have hle := List.le_of_mem_argmax (List.mem_filter.mpr ⟨hx, hhit⟩) hy
    have hexact : x.1.exact = false := by
      simp_all [prefixHit]
    unfold PathOutranks at houtranks
    simp [hexact] at houtranks
    omega

end pathInClass

section matchRoute

variable {routes merged : List RouteConfig} {host : Option String} {path : String}

def Matches (host : Option String) (path : String) (r : RouteConfig) : Prop :=
  hostMatches r.host host = true ∧ pathMatches path r = true

/-- The documented precedence: the host decides before the path does. -/
def Outranks (a b : RouteConfig) : Prop :=
  a.host.isSome = true ∧ b.host.isSome = false
    ∨ a.host.isSome = b.host.isSome ∧ PathOutranks a b

def BestMatch (routes : List RouteConfig) (host : Option String) (path : String) (r : RouteConfig)
    : Prop :=
  r ∈ routes ∧ Matches host path r ∧ ∀ r' ∈ routes, Matches host path r' → r' = r ∨ Outranks r r'

def selected (routes : List RouteConfig) (host : Option String) (path : String)
    : Option RouteConfig :=
  (matchRoute routes host path).bind fun i => routes[i]?

theorem hostMatches_none (host : Option String) : hostMatches none host = true := by
  cases host with
  | none => rfl
  | some h => rfl

theorem path_eq_of_not_outranks {a b : RouteConfig} (ha : pathMatches path a = true)
    (hb : pathMatches path b = true) (hab : ¬PathOutranks a b) (hba : ¬PathOutranks b a)
    : a.pathPrefix = b.pathPrefix ∧ a.exact = b.exact := by
  unfold pathMatches exactHit prefixHit at ha hb
  unfold PathOutranks at hab hba
  cases haexact : a.exact with
  | true =>
    cases hbexact : b.exact with
    | true =>
      simp only [haexact, hbexact, Bool.true_and, Bool.not_true, Bool.false_and, Bool.or_false,
        beq_iff_eq] at ha hb
      rw [ha, hb]
      simp
    | false => simp [haexact, hbexact] at hab
  | false =>
    cases hbexact : b.exact with
    | true => simp [haexact, hbexact] at hba
    | false =>
      simp only [haexact, hbexact, Bool.false_and, Bool.not_false, Bool.true_and,
        Bool.false_or] at ha hb
      simp only [haexact, hbexact, Bool.false_eq_true, false_and, true_and, false_or,
        Nat.not_lt] at hab hba
      refine ⟨?_, rfl⟩
      apply eq_of_startsWith ha hb
      omega

theorem host_eq_of_matches {a b : RouteConfig} (ha : hostMatches a.host host = true)
    (hb : hostMatches b.host host = true) (hclass : a.host.isSome = b.host.isSome)
    : a.host.map normalizeHost = b.host.map normalizeHost := by
  cases hahost : a.host with
  | none =>
    cases hbhost : b.host with
    | none => rfl
    | some bh => simp [hahost, hbhost] at hclass
  | some ah =>
    cases hbhost : b.host with
    | none => simp [hahost, hbhost] at hclass
    | some bh =>
      cases host with
      | none => simp [hahost, hostMatches] at ha
      | some h =>
        simp only [hahost, hbhost, hostMatches] at ha hb
        rw [Option.map_some, Option.map_some, normalizeHost_congr ha, normalizeHost_congr hb]

theorem key_eq_of_not_outranks {a b : RouteConfig} (ha : Matches host path a)
    (hb : Matches host path b) (hab : ¬Outranks a b) (hba : ¬Outranks b a)
    : RouteKey.of a = RouteKey.of b := by
  unfold Outranks at hab hba
  have hclass : a.host.isSome = b.host.isSome := by
    cases hahost : a.host.isSome with
    | true =>
      cases hbhost : b.host.isSome with
      | true => rfl
      | false => simp [hahost, hbhost] at hab
    | false =>
      cases hbhost : b.host.isSome with
      | true => simp [hahost, hbhost] at hba
      | false => rfl
  have hpath : ¬PathOutranks a b := by
    intro h
    apply hab
    right
    exact ⟨hclass, h⟩
  have hpath' : ¬PathOutranks b a := by
    intro h
    apply hba
    right
    exact ⟨hclass.symm, h⟩
  rcases path_eq_of_not_outranks ha.2 hb.2 hpath hpath' with ⟨hbegins, hexact⟩
  unfold RouteKey.of
  rw [host_eq_of_matches ha.1 hb.1 hclass, hbegins, hexact]

theorem mem_class {p : RouteConfig → Bool} {x : RouteConfig × Nat}
    : x ∈ routes.zipIdx.filter (fun x => p x.1) ↔ routes[x.2]? = some x.1 ∧ p x.1 = true := by
  rw [List.mem_filter, List.mem_zipIdx_iff_getElem?]

theorem class_eq_some {p : RouteConfig → Bool} {i : Nat}
    (h : pathInClass (routes.zipIdx.filter fun x => p x.1) path = some i)
    : ∃ r, routes[i]? = some r ∧ p r = true ∧ pathMatches path r = true
      ∧ ∀ r' ∈ routes, p r' = true → pathMatches path r' = true → ¬PathOutranks r' r := by
  rcases pathInClass_eq_some h with ⟨r, hr, hmatch, hbest⟩
  rw [mem_class] at hr
  refine ⟨r, hr.1, hr.2, hmatch, ?_⟩
  intro r' hr' hp hmatch'
  rcases List.getElem?_of_mem hr' with ⟨j, hj⟩
  apply hbest (r', j) _ hmatch'
  rw [mem_class]
  exact ⟨hj, hp⟩

theorem class_eq_none {p : RouteConfig → Bool}
    (h : pathInClass (routes.zipIdx.filter fun x => p x.1) path = none) {r : RouteConfig}
    (hr : r ∈ routes) (hp : p r = true)
    : pathMatches path r = false := by
  rw [pathInClass_eq_none] at h
  rcases List.getElem?_of_mem hr with ⟨j, hj⟩
  apply h (r, j)
  rw [mem_class]
  exact ⟨hj, hp⟩

theorem matchRoute_spec (routes : List RouteConfig) (host : Option String) (path : String)
    : (matchRoute routes host path = none ∧ ∀ r ∈ routes, ¬Matches host path r)
      ∨ ∃ i r, matchRoute routes host path = some i ∧ routes[i]? = some r ∧ Matches host path r
        ∧ ∀ r' ∈ routes, Matches host path r' → ¬Outranks r' r := by
  unfold matchRoute
  dsimp
  cases hspecific : pathInClass (routes.zipIdx.filter fun x =>
      x.1.host.isSome && hostMatches x.1.host host) path with
  | some i =>
    right
    rcases class_eq_some (p := fun r => r.host.isSome && hostMatches r.host host) hspecific
      with ⟨r, hr, hp, hmatch, hbest⟩
    rw [Bool.and_eq_true] at hp
    refine ⟨i, r, rfl, hr, ⟨hp.2, hmatch⟩, ?_⟩
    intro r' hr' hmatch' houtranks
    cases houtranks with
    | inl h => simp [hp.1] at h
    | inr h =>
      apply hbest r' hr' _ hmatch'.2 h.2
      rw [h.1, hp.1, hmatch'.1]
      rfl
  | none =>
    -- No route with a host matches, so all that is left is compared by the path.
    have hnone : ∀ r ∈ routes, Matches host path r → r.host = none := by
      intro r hr hmatch
      rw [← Option.not_isSome_iff_eq_none]
      intro hsome
      have hfalse := class_eq_none (p := fun r => r.host.isSome && hostMatches r.host host)
        hspecific hr (by simp [hsome, hmatch.1])
      rw [hmatch.2] at hfalse
      cases hfalse
    cases hcatchAll : pathInClass (routes.zipIdx.filter fun x => x.1.host.isNone) path with
    | some i =>
      right
      rcases class_eq_some (p := fun r => r.host.isNone) hcatchAll with ⟨r, hr, hp, hmatch, hbest⟩
      rw [Option.isNone_iff_eq_none] at hp
      have hhost : hostMatches r.host host = true := by
        rw [hp]
        apply hostMatches_none
      refine ⟨i, r, rfl, hr, ⟨hhost, hmatch⟩, ?_⟩
      intro r' hr' hmatch' houtranks
      have hhost' := hnone r' hr' hmatch'
      cases houtranks with
      | inl h => simp [hhost'] at h
      | inr h =>
        apply hbest r' hr' _ hmatch'.2 h.2
        simp [hhost']
    | none =>
      left
      refine ⟨rfl, ?_⟩
      intro r hr hmatch
      have hfalse := class_eq_none (p := fun r => r.host.isNone) hcatchAll hr
        (by simp [hnone r hr hmatch])
      rw [hmatch.2] at hfalse
      cases hfalse

theorem selected_eq_none
    : selected routes host path = none ↔ ∀ r ∈ routes, ¬Matches host path r := by
  unfold selected
  cases matchRoute_spec routes host path with
  | inl h => simpa [h.1] using h.2
  | inr h =>
    rcases h with ⟨i, r, hi, hr, hmatch, -⟩
    simp only [hi, hr, Option.bind_some, reduceCtorEq, false_iff, not_forall, not_not]
    exact ⟨r, List.mem_of_getElem? hr, hmatch⟩

theorem selected_eq_some (hkeys : (routes.map RouteKey.of).Nodup) {r : RouteConfig}
    : selected routes host path = some r ↔ BestMatch routes host path r := by
  -- Routes with distinct keys are comparable as soon as they match one request.
  have hcompare {a b : RouteConfig} (ha : a ∈ routes) (hb : b ∈ routes)
      (hamatch : Matches host path a) (hbmatch : Matches host path b) (hba : ¬Outranks b a)
      : b = a ∨ Outranks a b := by
    by_cases hab : Outranks a b
    . right
      assumption
    . left
      apply List.inj_on_of_nodup_map hkeys hb ha
      apply key_eq_of_not_outranks hbmatch hamatch hba hab
  unfold selected
  cases matchRoute_spec routes host path with
  | inl h =>
    simp only [h.1, Option.bind_none, reduceCtorEq, false_iff]
    intro hbest
    apply h.2 r hbest.1 hbest.2.1
  | inr h =>
    rcases h with ⟨i, s, hi, hs, hmatch, hbest⟩
    have hmem := List.mem_of_getElem? hs
    simp only [hi, hs, Option.bind_some, Option.some.injEq]
    constructor
    . intro heq
      subst heq
      refine ⟨hmem, hmatch, ?_⟩
      intro r' hr' hmatch'
      apply hcompare hmem hr' hmatch hmatch'
      apply hbest r' hr' hmatch'
    . intro hr
      cases hr.2.2 s hmem hmatch with
      | inl heq => assumption
      | inr houtranks =>
        exfalso
        apply hbest r hr.1 hr.2.1 houtranks

theorem BestMatch.perm {routes' : List RouteConfig} (hperm : routes'.Perm routes) {r : RouteConfig}
    : BestMatch routes' host path r ↔ BestMatch routes host path r := by
  unfold BestMatch
  simp only [hperm.mem_iff]

theorem merge_orderIndependent (staticRoutes rendered : List RouteConfig)
    : ((∃ merged, merge staticRoutes rendered = .ok merged)
          ↔
        ((staticRoutes ++ rendered).map RouteKey.of).Nodup)
      ∧ ∀ merged, merge staticRoutes rendered = .ok merged →
        merged = staticRoutes ++ rendered
        ∧ ∀ routes, routes.Perm merged → ∀ host path,
          selected routes host path = selected merged host path
          ∧ (∀ r, selected routes host path = some r ↔ BestMatch merged host path r)
          ∧ (selected routes host path = none ↔ ∀ r ∈ merged, ¬Matches host path r) := by
  refine ⟨?_, ?_⟩
  . simp only [merge_eq_ok, exists_eq_left]
  . intro merged hmerge
    rw [merge_eq_ok] at hmerge
    refine ⟨hmerge.1, ?_⟩
    intro routes hperm host path
    have hkeys : (routes.map RouteKey.of).Nodup := by
      rw [(hperm.map RouteKey.of).nodup_iff]
      apply hmerge.2
    have hsome (r : RouteConfig) : selected routes host path = some r ↔ BestMatch merged host path r := by
      rw [selected_eq_some hkeys, BestMatch.perm hperm]
    refine ⟨?_, hsome, ?_⟩
    . apply Option.ext
      intro r
      rw [hsome, selected_eq_some hmerge.2]
    . rw [selected_eq_none]
      simp only [hperm.mem_iff]

example
    : matchRoute [
        { pathPrefix := "/api/v1", upstream := "a" },
        { pathPrefix := "/api", host := some "Shop.Test", upstream := "b" },
        { pathPrefix := "/api/v1", host := some "other.test", exact := true, upstream := "c" }
      ] (some "shop.test") "/api/v1" = some 1 := by
  decide

end matchRoute

end OpenRusty
