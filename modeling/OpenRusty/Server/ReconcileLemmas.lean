import Mathlib.Data.Finset.Card
import OpenRusty.Core.ValidateLemmas
import OpenRusty.Server.DynamicRoutesLemmas

/-!
This module contains what a reconciliation does to the bindings. The configured routes are bound one after
the other in the table that the run-time bindings are in, and a route that finds the table full is
skipped: the configuration is realised exactly if its routes fit beside the bindings that it leaves alone.
-/

namespace OpenRusty

open DynamicConfig (normalizeMethod normalizeRoutePath basePath validModuleName)

namespace DynamicRoutes

def binding (t : DynamicRoutes) (key : String × String) : Option Binding :=
  match t.exact.lookup key with
  | some module => some ⟨.exact, module⟩
  | none => (t.prefixes.find? fun b => b.1 == key).map fun b => ⟨.wildcard, b.2⟩

end DynamicRoutes

def configuredKeys (routes : List DynamicRoute) : List (String × String) :=
  routes.filterMap fun r => routeKey r.method r.path

structure Realises (t : DynamicRoutes) (routes : List DynamicRoute) (next : DynamicRoutes) : Prop where
  configured : ∀ r ∈ routes, ∃ key b,
    bindingOf r.method r.path r.module = some (key, b) ∧ next.binding key = some b
  gone : ∀ key ∈ t.configKeys, key ∉ configuredKeys routes → next.binding key = none
  untouched : ∀ key ∉ t.configKeys, key ∉ configuredKeys routes → next.binding key = t.binding key

def DynamicRoutes.unrelated (t : DynamicRoutes) (routes : List DynamicRoute) : Nat :=
  (t.views.filter fun e => decide (e.1 ∉ t.configKeys ∧ e.1 ∉ configuredKeys routes)).length

theorem Refines.binding {t : DynamicRoutes} {a : BindingMap} (h : Refines t a) (key : String × String)
    : t.binding key = a.bindings.lookup key := by
  unfold DynamicRoutes.binding
  cases hexact : t.exact.lookup key with
  | some module => exact (h.lookup_exact.mp hexact).symm
  | none =>
    dsimp only
    cases hfind : t.prefixes.find? fun b => b.1 == key with
    | some b =>
      rcases b with ⟨k, module⟩
      have hk : k = key := by simpa using List.find?_some hfind
      subst hk
      exact (h.mem_prefixes.mp (List.mem_of_find?_eq_some hfind)).symm
    | none =>
      symm
      rw [Option.map_none, Option.eq_none_iff_forall_ne_some]
      rintro ⟨shape, module⟩ hb
      cases shape with
      | exact =>
        rw [h.lookup_exact.mpr hb] at hexact
        cases hexact
      | wildcard =>
        rw [List.find?_eq_none] at hfind
        apply hfind _ (h.mem_prefixes.mpr hb)
        simp

namespace BindingMap

def keys (a : BindingMap) : Finset (String × String) := a.bindings.keys.toFinset

section keys

variable {a : BindingMap} {key : String × String}

theorem mem_keys : key ∈ a.keys ↔ (a.bindings.lookup key).isSome = true := by
  unfold keys
  rw [List.mem_toFinset, ← AList.mem_keys, AList.lookup_isSome]

theorem card_keys (a : BindingMap) : a.keys.card = a.bindings.entries.length := by
  unfold keys
  rw [List.toFinset_card_of_nodup a.bindings.keys_nodup]
  unfold AList.keys List.keys
  rw [List.length_map]

theorem bind_of_not_full (h : ¬a.full key) (b : Binding) (owned : Bool)
    : (a.bind key b owned).bindings = a.bindings.insert key b := by
  unfold bind
  rw [if_neg h]

theorem full_iff : a.full key ↔ key ∉ a.keys ∧ DynamicRoutes.maxBindings ≤ a.keys.card := by
  unfold full
  rw [mem_keys, card_keys, Option.not_isSome_iff_eq_none]

theorem keys_bind_of_not_full (h : ¬a.full key) (b : Binding) (owned : Bool)
    : (a.bind key b owned).keys = insert key a.keys := by
  ext k
  rw [mem_keys, bind_of_not_full h, Finset.mem_insert, mem_keys]
  by_cases hk : k = key
  . subst hk
    simp
  . simp [AList.lookup_insert_ne hk, hk]

theorem lookup_bind_of_ne {k : String × String} (hk : k ≠ key) (b : Binding) (owned : Bool)
    : (a.bind key b owned).bindings.lookup k = a.bindings.lookup k := by
  unfold bind
  split
  . rfl
  . rw [AList.lookup_insert_ne hk]

end keys

abbrev Entry := (String × String) × Binding

def bindAll (a : BindingMap) (bs : List Entry) : BindingMap := bs.foldl (fun a e => a.bind e.1 e.2 true) a

section bindAll

theorem lookup_bindAll_of_notMem {a : BindingMap} {bs : List Entry} {k : String × String}
    (hk : k ∉ bs.map Prod.fst)
    : (a.bindAll bs).bindings.lookup k = a.bindings.lookup k := by
  induction bs generalizing a with
  | nil => rfl
  | cons e bs ih =>
    rw [List.map_cons, List.mem_cons, not_or] at hk
    change ((a.bind e.1 e.2 true).bindAll bs).bindings.lookup k = _
    rw [ih hk.2, lookup_bind_of_ne hk.1]

theorem bounded_bindAll {a : BindingMap} (h : a.Bounded) (bs : List Entry) : (a.bindAll bs).Bounded := by
  induction bs generalizing a with
  | nil => exact h
  | cons e bs ih =>
    change ((a.bind e.1 e.2 true).bindAll bs).Bounded
    apply ih
    apply h.bind

theorem lookup_bindAll {a : BindingMap} {bs : List Entry} (hnodup : (bs.map Prod.fst).Nodup)
    (hfits : (a.keys \ (bs.map Prod.fst).toFinset).card + bs.length ≤ DynamicRoutes.maxBindings)
    : ∀ e ∈ bs, (a.bindAll bs).bindings.lookup e.1 = some e.2 := by
  induction bs generalizing a with
  | nil => simp
  | cons e bs ih =>
    rcases e with ⟨key, b⟩
    rw [List.map_cons, List.nodup_cons] at hnodup
    rcases hnodup with ⟨hfresh, hnodup⟩
    rw [List.map_cons, List.toFinset_cons, List.length_cons] at hfits
    dsimp only at hfits hfresh
    have hcard : (bs.map Prod.fst).toFinset.card = bs.length := by
      rw [List.toFinset_card_of_nodup hnodup, List.length_map]
    generalize hK : (bs.map Prod.fst).toFinset = K at hfits hcard
    have hkey : key ∉ K := by
      rw [← hK, List.mem_toFinset]
      exact hfresh
    -- The new keys that are still to come have room, so the first one has.
    have hfull : ¬a.full key := by
      rw [full_iff]
      rintro ⟨hnew, hle⟩
      have hsub : a.keys ⊆ (a.keys \ insert key K) ∪ K := by
        intro k hk
        by_cases hkK : k ∈ K
        . exact Finset.mem_union_right _ hkK
        . apply Finset.mem_union_left
          rw [Finset.mem_sdiff, Finset.mem_insert]
          refine ⟨hk, ?_⟩
          rintro (rfl | hmem)
          . exact hnew hk
          . exact hkK hmem
      have := (Finset.card_le_card hsub).trans (Finset.card_union_le _ _)
      omega
    have hrest : ((a.bind key b true).keys \ K).card + bs.length ≤ DynamicRoutes.maxBindings := by
      rw [keys_bind_of_not_full hfull]
      have hsub : insert key a.keys \ K ⊆ insert key (a.keys \ insert key K) := by
        intro k
        simp only [Finset.mem_sdiff, Finset.mem_insert]
        tauto
      have := (Finset.card_le_card hsub).trans (Finset.card_insert_le _ _)
      omega
    change ∀ e ∈ (key, b) :: bs, ((a.bind key b true).bindAll bs).bindings.lookup e.1 = some e.2
    intro e he
    rcases List.mem_cons.mp he with rfl | he
    . rw [lookup_bindAll_of_notMem hfresh, bind_of_not_full hfull, AList.lookup_insert]
    . rw [← hK] at hrest
      exact ih hnodup hrest e he

theorem le_of_lookup_bindAll {a : BindingMap} (h : a.Bounded) {bs : List Entry}
    (hnodup : (bs.map Prod.fst).Nodup)
    (hbound : ∀ e ∈ bs, (a.bindAll bs).bindings.lookup e.1 = some e.2)
    : (a.keys \ (bs.map Prod.fst).toFinset).card + bs.length ≤ DynamicRoutes.maxBindings := by
  have hsub : (a.keys \ (bs.map Prod.fst).toFinset) ∪ (bs.map Prod.fst).toFinset
      ⊆ (a.bindAll bs).keys := by
    intro k hk
    rw [mem_keys]
    rcases Finset.mem_union.mp hk with hk | hk
    . rw [Finset.mem_sdiff, List.mem_toFinset] at hk
      rw [lookup_bindAll_of_notMem hk.2, ← mem_keys]
      exact hk.1
    . rw [List.mem_toFinset] at hk
      rcases List.mem_map.mp hk with ⟨e, he, rfl⟩
      rw [hbound e he]
      rfl
  have hcard := Finset.card_le_card hsub
  rw [Finset.card_union_of_disjoint Finset.sdiff_disjoint, List.toFinset_card_of_nodup hnodup,
    List.length_map] at hcard
  have := (bounded_bindAll h bs).size
  rw [← card_keys] at this
  omega

end bindAll

def entriesOf (routes : List DynamicRoute) : List Entry :=
  routes.filterMap fun r => bindingOf r.method r.path r.module

theorem reconcile_eq (a : BindingMap) (routes : List DynamicRoute)
    : a.reconcile routes = a.kept.bindAll (entriesOf routes) := by
  unfold reconcile
  generalize a.kept = a
  induction routes generalizing a with
  | nil => rfl
  | cons r routes ih =>
    rw [List.foldl_cons, ih]
    unfold entriesOf bindRoute
    rw [List.filterMap_cons]
    cases bindingOf r.method r.path r.module <;> rfl

theorem lookup_kept (a : BindingMap) (key : String × String)
    : a.kept.bindings.lookup key = if key ∈ a.owned then none else a.bindings.lookup key := by
  unfold kept
  rw [AList.lookup_retain]
  by_cases hkey : key ∈ a.owned
  . rw [if_pos hkey]
    cases a.bindings.lookup key <;> simp [Option.filter, hkey]
  . rw [if_neg hkey]
    cases a.bindings.lookup key <;> simp [Option.filter, hkey]

theorem keys_kept (a : BindingMap) : a.kept.keys = a.keys.filter fun key => key ∉ a.owned := by
  ext key
  rw [mem_keys, lookup_kept, Finset.mem_filter, mem_keys]
  by_cases hkey : key ∈ a.owned
  . simp [hkey]
  . simp [hkey]

theorem Bounded.kept {a : BindingMap} (h : a.Bounded) : a.kept.Bounded where
  size := Nat.le_trans (List.length_filter_le _ _) h.size
  owned := by simp [BindingMap.kept]

end BindingMap

open BindingMap (entriesOf)

structure ValidRoutes (routes : List DynamicRoute) : Prop where
  valid : ∀ r ∈ routes, ∃ key b, bindingOf r.method r.path r.module = some (key, b)
  distinct : (configuredKeys routes).Nodup

theorem routeKey_of_bindingOf {method path module : String} {key : String × String} {b : Binding}
    (h : bindingOf method path module = some (key, b))
    : routeKey method path = some key := by
  unfold bindingOf at h
  unfold routeKey
  split at h
  . next m p hm hp =>
    split at h
    . cases h
      rfl
    . cases h
  . cases h

theorem entriesOf_of_valid {routes : List DynamicRoute}
    (h : ∀ r ∈ routes, ∃ key b, bindingOf r.method r.path r.module = some (key, b))
    : (entriesOf routes).map Prod.fst = configuredKeys routes
      ∧ (entriesOf routes).length = routes.length := by
  induction routes with
  | nil => exact ⟨rfl, rfl⟩
  | cons r routes ih =>
    rcases h r (by simp) with ⟨key, b, hr⟩
    rcases ih (fun r' hr' => h r' (by simp [hr'])) with ⟨hkeys, hlen⟩
    have hentries : entriesOf (r :: routes) = (key, b) :: entriesOf routes := by
      apply List.filterMap_cons_some
      exact hr
    have hconfigured : configuredKeys (r :: routes) = key :: configuredKeys routes := by
      apply List.filterMap_cons_some
      exact routeKey_of_bindingOf hr
    rw [hentries, hconfigured, List.map_cons, hkeys, List.length_cons, hlen, List.length_cons]
    exact ⟨rfl, rfl⟩

namespace DynamicConfig

theorem validRoutes_of_validate {env : ConfigEnv} {d : DynamicConfig} (h : d.validate env = .ok ())
    : ValidRoutes d.routes := by
  unfold validate at h
  simp only [Except.unit_bind_eq_ok, Except.forFresh_eq_ok, require_eq_ok] at h
  obtain ⟨-, -, -, -, -, hdistinct, hroutes⟩ := h
  have hvalid : ∀ r ∈ d.routes, ∃ m, normalizeMethod r.method = some m
      ∧ normalizeRoutePath r.path = some r.path ∧ validModuleName r.module = true := by
    intro r hr
    obtain ⟨-, ⟨hm, hp, hmodule⟩, -⟩ := hroutes r hr
    rcases Option.isSome_iff_exists.mp hm with ⟨m, hm⟩
    refine ⟨m, hm, ?_, hmodule⟩
    unfold normalizeRoutePath at hp ⊢
    split at hp
    . cases hp
    . next hpath => rw [if_neg hpath]
  constructor
  . intro r hr
    rcases hvalid r hr with ⟨m, hm, hp, hmodule⟩
    unfold bindingOf
    simp only [hm, hp, hmodule, if_true]
    exact ⟨_, _, rfl⟩
  . apply List.Nodup.of_map fun key => (some key.1, key.2)
    have hkeys (routes : List DynamicRoute) (hsub : routes ⊆ d.routes)
        : (configuredKeys routes).map (fun key => (some key.1, key.2))
          = routes.map fun r => (normalizeMethod r.method, basePath r.path) := by
      induction routes with
      | nil => rfl
      | cons r routes ih =>
        rcases hvalid r (hsub (by simp)) with ⟨m, hm, hp, -⟩
        have hconfigured : configuredKeys (r :: routes) = (m, basePath r.path) :: configuredKeys routes := by
          apply List.filterMap_cons_some
          unfold routeKey
          rw [hm, hp]
        rw [hconfigured, List.map_cons, List.map_cons, hm, ih]
        intro r' hr'
        apply hsub
        simp [hr']
    rw [hkeys d.routes (List.Subset.refl _)]
    exact hdistinct

end DynamicConfig

theorem Refines.unrelated {t : DynamicRoutes} {a : BindingMap} (h : Refines t a)
    (routes : List DynamicRoute)
    : t.unrelated routes = (a.kept.keys \ (configuredKeys routes).toFinset).card := by
  have hkeys : a.kept.keys \ (configuredKeys routes).toFinset
      = ((a.bindings.entries.filter fun e =>
          decide (e.1 ∉ t.configKeys ∧ e.1 ∉ configuredKeys routes)).map Sigma.fst).toFinset := by
    ext key
    rw [BindingMap.keys_kept, Finset.mem_sdiff, Finset.mem_filter, BindingMap.mem_keys,
      List.mem_toFinset, List.mem_toFinset, List.mem_map, Option.isSome_iff_exists]
    simp only [List.mem_filter, decide_eq_true_iff, ← h.owned, ← Option.mem_def, AList.mem_lookup_iff]
    constructor
    . rintro ⟨⟨⟨b, hb⟩, howned⟩, hkey⟩
      exact ⟨⟨key, b⟩, ⟨hb, howned, hkey⟩, rfl⟩
    . rintro ⟨⟨k, b⟩, ⟨hb, howned, hkey⟩, rfl⟩
      exact ⟨⟨⟨b, hb⟩, howned⟩, hkey⟩
  rw [hkeys, List.toFinset_card_of_nodup, List.length_map]
  . unfold DynamicRoutes.unrelated
    exact (h.views.filter _).length_eq
  . apply List.Nodup.sublist _ a.bindings.nodupKeys
    exact List.filter_sublist.map _

theorem Refines.realises_iff {t : DynamicRoutes} {a : BindingMap} (debug : String → String)
    (h : Refines t a) (hbounded : a.Bounded) {routes : List DynamicRoute} (hroutes : ValidRoutes routes)
    : Realises t routes (t.reconcile debug routes)
      ↔ t.unrelated routes + routes.length ≤ DynamicRoutes.maxBindings := by
  have hnext := h.reconcile debug routes
  rw [BindingMap.reconcile_eq] at hnext
  rcases entriesOf_of_valid hroutes.valid with ⟨hkeys, hlen⟩
  have hnodup := hroutes.distinct
  rw [← hkeys] at hnodup
  rw [h.unrelated, ← hlen, ← hkeys]
  constructor
  . intro hreal
    apply BindingMap.le_of_lookup_bindAll hbounded.kept hnodup
    rintro ⟨key, b⟩ he
    rcases List.mem_filterMap.mp he with ⟨r, hr, hbinding⟩
    rcases hreal.configured r hr with ⟨key', b', hbinding', hlookup⟩
    rw [hbinding] at hbinding'
    cases hbinding'
    rw [← hnext.binding]
    exact hlookup
  . intro hfits
    have hlookup := BindingMap.lookup_bindAll hnodup hfits
    constructor
    . intro r hr
      rcases hroutes.valid r hr with ⟨key, b, hbinding⟩
      refine ⟨key, b, hbinding, ?_⟩
      rw [hnext.binding]
      apply hlookup (key, b)
      exact List.mem_filterMap.mpr ⟨r, hr, hbinding⟩
    . intro key howned hkey
      rw [← hkeys] at hkey
      rw [hnext.binding, BindingMap.lookup_bindAll_of_notMem hkey, BindingMap.lookup_kept,
        if_pos ((h.owned key).mp howned)]
    . intro key howned hkey
      rw [← hkeys] at hkey
      rw [hnext.binding, BindingMap.lookup_bindAll_of_notMem hkey, BindingMap.lookup_kept,
        if_neg ((h.owned key).not.mp howned), h.binding]

theorem reconcile_realises_iff (env : ConfigEnv) (ops : List RouteOp) (d : DynamicConfig)
    (hvalid : d.validate env = .ok ())
    : let t := ops.foldl (DynamicRoutes.exec env.debug) {}
      Realises t d.routes (t.reconcile env.debug d.routes)
        ↔ t.unrelated d.routes + d.routes.length ≤ DynamicRoutes.maxBindings := by
  rcases refines_of_ops env.debug ops with ⟨h, hbounded⟩
  exact h.realises_iff env.debug hbounded (DynamicConfig.validRoutes_of_validate hvalid)

theorem reconcile_realises_one
    : let env : ConfigEnv := { lookupHost := fun _ => none, debug := id }
      let d : DynamicConfig := { dir := "modules", routes := [⟨"get", "/b/*", "other"⟩] }
      let t := [RouteOp.bind "GET" "/a" "hello"].foldl (DynamicRoutes.exec env.debug) {}
      d.validate env = .ok () ∧ Realises t d.routes (t.reconcile env.debug d.routes) := by
  refine ⟨by decide, ?_⟩
  apply (reconcile_realises_iff { lookupHost := fun _ => none, debug := id }
    [RouteOp.bind "GET" "/a" "hello"]
    { dir := "modules", routes := [⟨"get", "/b/*", "other"⟩] } (by decide)).mpr
  decide

section fill

def fillPath (n : Nat) : String :=
  String.ofList ('/' :: (List.replicate (n % 64) 'a' ++ List.replicate (n / 64) 'b'))

def fillOps (n : Nat) : List RouteOp := (List.range n).map fun i => .bind "GET" (fillPath i) "hello"

theorem mem_fillPath {n : Nat} {c : Char} (h : c ∈ (fillPath n).toList) : c = '/' ∨ c = 'a' ∨ c = 'b' := by
  unfold fillPath at h
  rw [String.toList_ofList, List.mem_cons, List.mem_append] at h
  rcases h with h | h | h
  . left
    assumption
  . right
    left
    exact List.eq_of_mem_replicate h
  . right
    right
    exact List.eq_of_mem_replicate h

theorem fillPath_injective : Function.Injective fun i => ("GET", fillPath i) := by
  intro m n h
  have hlists := congrArg (fun key => key.2.toList) h
  dsimp only at hlists
  unfold fillPath at hlists
  rw [String.toList_ofList, String.toList_ofList] at hlists
  have ha := congrArg (List.count 'a') hlists
  have hb := congrArg (List.count 'b') hlists
  simp [List.count_replicate] at ha hb
  omega

theorem bindingOf_fillPath {n : Nat} (h : n < DynamicRoutes.maxBindings)
    : bindingOf "GET" (fillPath n) "hello" = some (("GET", fillPath n), ⟨.exact, "hello"⟩) := by
  have hmethod : normalizeMethod "GET" = some "GET" := by decide
  have hpath : normalizeRoutePath (fillPath n) = some (fillPath n) := by
    have hstart : startsWith (fillPath n) "/" = true := by
      simp [startsWith, fillPath]
    have hlen : ¬DynamicConfig.maxRoutePathLen < len (fillPath n) := by
      have : n / 64 < 64 := by
        unfold DynamicRoutes.maxBindings at h
        omega
      have hsize : len (fillPath n) = 1 + (n % 64 + n / 64) := by
        simp [len, fillPath, Char.utf8Size]
      rw [hsize]
      unfold DynamicConfig.maxRoutePathLen
      omega
    have hchars : (fillPath n).toList.any
        (fun c => DynamicConfig.isAsciiControl c || c == '?' || c == '#') = false := by
      rw [List.any_eq_false]
      intro c hc
      rcases mem_fillPath hc with rfl | rfl | rfl <;> decide
    unfold normalizeRoutePath
    simp [hstart, hlen, hchars]
  have hsuffix : "/*".toList.isSuffixOf (fillPath n).toList = false := by
    rw [Bool.eq_false_iff, Ne, List.isSuffixOf_iff_suffix]
    intro hsuffix
    have hstar : '*' ∈ (fillPath n).toList := hsuffix.subset (by decide)
    rcases mem_fillPath hstar with h | h | h <;> cases h
  unfold bindingOf
  simp only [hmethod, hpath]
  rw [if_pos (by decide)]
  unfold basePath BindingShape.of
  rw [if_neg (Bool.eq_false_iff.mp hsuffix), if_neg (Bool.eq_false_iff.mp hsuffix)]

theorem keys_fillOps {n : Nat} (h : n ≤ DynamicRoutes.maxBindings)
    : ((fillOps n).foldl BindingMap.exec {}).keys = (Finset.range n).image (fun i => ("GET", fillPath i))
      ∧ ((fillOps n).foldl BindingMap.exec {}).owned = ∅ := by
  induction n with
  | zero => exact ⟨rfl, rfl⟩
  | succ n ih =>
    rcases ih (by omega) with ⟨hkeys, howned⟩
    unfold fillOps at *
    rw [List.range_succ, List.map_append, List.foldl_append]
    generalize ((List.range n).map fun i => RouteOp.bind "GET" (fillPath i) "hello").foldl
      BindingMap.exec {} = a at hkeys howned
    have hfull : ¬a.full ("GET", fillPath n) := by
      rw [BindingMap.full_iff, hkeys, Finset.card_image_of_injective _ fillPath_injective, Finset.card_range]
      omega
    change (a.bindRoute "GET" (fillPath n) "hello" false).keys = _
      ∧ (a.bindRoute "GET" (fillPath n) "hello" false).owned = ∅
    unfold BindingMap.bindRoute
    rw [bindingOf_fillPath (by omega)]
    constructor
    . dsimp only
      rw [BindingMap.keys_bind_of_not_full hfull, hkeys, Finset.range_add_one, Finset.image_insert]
    . dsimp only
      unfold BindingMap.bind
      rw [if_neg hfull]
      exact howned

theorem reconcile_full
    : let env : ConfigEnv := { lookupHost := fun _ => none, debug := id }
      let d : DynamicConfig := { dir := "modules", routes := [⟨"PUT", "/x", "other"⟩] }
      let t := (fillOps DynamicRoutes.maxBindings).foldl (DynamicRoutes.exec env.debug) {}
      d.validate env = .ok () ∧ ¬Realises t d.routes (t.reconcile env.debug d.routes) := by
  intro env d t
  have hvalid : d.validate env = .ok () := by decide
  refine ⟨hvalid, ?_⟩
  rcases refines_of_ops env.debug (fillOps DynamicRoutes.maxBindings) with ⟨h, hbounded⟩
  rcases keys_fillOps (Nat.le_refl DynamicRoutes.maxBindings) with ⟨hkeys, howned⟩
  rw [h.realises_iff env.debug hbounded (DynamicConfig.validRoutes_of_validate hvalid), h.unrelated,
    BindingMap.keys_kept, howned, hkeys]
  have hconfigured : (configuredKeys d.routes).toFinset = {("PUT", "/x")} := by decide
  have hfresh : ("PUT", "/x") ∉ (Finset.range DynamicRoutes.maxBindings).image
      fun i => ("GET", fillPath i) := by
    simp
  rw [hconfigured, Finset.filter_true_of_mem (by simp), Finset.sdiff_singleton_eq_erase,
    Finset.erase_eq_of_notMem hfresh,
    Finset.card_image_of_injective _ fillPath_injective, Finset.card_range]
  change ¬DynamicRoutes.maxBindings + 1 ≤ DynamicRoutes.maxBindings
  omega

end fill

end OpenRusty
