import OpenRusty.Server.Bindings

/-!
This module contains the proof that the table of the dynamic routes is the map of bindings that it is for:
its two views together hold every binding once, in the view of its shape, and the search of a request
finds the binding that it is dispatched to. All operations are described by what they do to the views.
-/

namespace OpenRusty

open DynamicConfig (normalizeMethod normalizeRoutePath basePath validModuleName)

namespace DynamicRoutes

def views (t : DynamicRoutes) : List ((_ : String × String) × Binding) :=
  t.exact.entries.map (fun e => ⟨e.1, { shape := .exact, module := e.2 }⟩)
    ++ t.prefixes.map fun b => ⟨b.1, { shape := .wildcard, module := b.2 }⟩

def Longer (a b : (String × String) × String) : Prop := len b.1.1 + len b.1.2 ≤ len a.1.1 + len a.1.2

instance : DecidableRel Longer :=
  fun a b => inferInstanceAs (Decidable (len b.1.1 + len b.1.2 ≤ len a.1.1 + len a.1.2))

theorem longer_iff {m base module m' base' module' : String}
    : Longer ((m, base), module) ((m', base'), module') ↔ len m' + len base' ≤ len m + len base := by
  rfl

def put (t : DynamicRoutes) (key : String × String) (b : Binding) (owned : Bool) : DynamicRoutes :=
  let next :=
    match b.shape with
    | .wildcard => t.addPrefix key b.module
    | .exact => t.addExact key b.module
  if owned then next.own key else next

section views

variable (t : DynamicRoutes) (key : String × String)

theorem size_eq : t.size = t.views.length := by
  simp [size, views]

theorem contains_iff : t.contains key = true ↔ ∃ b, ⟨key, b⟩ ∈ t.views := by
  have hexact : (t.exact.lookup key).isSome = true ↔ ∃ m, ⟨key, m⟩ ∈ t.exact.entries := by
    rw [Option.isSome_iff_exists]
    simp only [← Option.mem_def, AList.mem_lookup_iff]
  unfold contains views
  rw [Bool.or_eq_true, hexact, List.any_eq_true]
  simp only [List.mem_append, List.mem_map, beq_iff_eq]
  constructor
  . rintro (⟨m, hm⟩ | ⟨⟨k, m⟩, hm, rfl⟩)
    . exact ⟨_, .inl ⟨_, hm, rfl⟩⟩
    . exact ⟨_, .inr ⟨_, hm, rfl⟩⟩
  . rintro ⟨b, ⟨⟨k, m⟩, hm, heq⟩ | ⟨⟨k, m⟩, hm, heq⟩⟩
    . cases heq
      exact .inl ⟨m, hm⟩
    . cases heq
      exact .inr ⟨_, hm, rfl⟩

theorem views_retain (p : String × String → String → Bool) (configKeys : List (String × String))
    : views {
        exact := t.exact.retain p
        prefixes := t.prefixes.filter fun b => p b.1 b.2
        configKeys := configKeys
      } = t.views.filter fun e => p e.1 e.2.module := by
  unfold views
  rw [List.filter_append, List.filter_map, List.filter_map]
  rfl

theorem remove_eq
    : t.remove key = { t with
      exact := t.exact.retain fun k _ => decide (k ≠ key)
      prefixes := t.prefixes.filter fun b => decide (b.1 ≠ key) } := by
  unfold remove
  rw [AList.erase_eq_retain]
  simp only [bne, beq_eq_decide, decide_not]

theorem views_remove : (t.remove key).views = t.views.filter fun e => decide (e.1 ≠ key) := by
  rw [remove_eq]
  apply views_retain

theorem views_foldl_remove (keys : List (String × String))
    : (keys.foldl remove t).views = t.views.filter fun e => decide (e.1 ∉ keys) := by
  induction keys generalizing t with
  | nil => simp
  | cons k keys ih =>
    rw [List.foldl_cons, ih, views_remove, List.filter_filter]
    apply List.filter_congr
    intro e _
    by_cases h : e.1 = k
    . simp [h]
    . simp [h]

theorem views_addExact (module : String)
    : (t.addExact key module).views
        =
      ⟨key, ⟨.exact, module⟩⟩ :: t.views.filter fun e => decide (e.1 ≠ key) := by
  rw [← views_remove]
  unfold addExact views
  rw [AList.entries_insert]
  rfl

theorem views_addPrefix (module : String)
    : (t.addPrefix key module).views.Perm
        (⟨key, ⟨.wildcard, module⟩⟩ :: t.views.filter fun e => decide (e.1 ≠ key)) := by
  rw [← views_remove]
  unfold addPrefix views
  dsimp only
  apply List.Perm.trans
  . apply List.Perm.append_left
    apply List.Perm.map
    apply List.perm_insertionSort
  . rw [List.map_append, ← List.append_assoc]
    apply List.perm_append_singleton

theorem views_put (b : Binding) (owned : Bool)
    : (t.put key b owned).views.Perm (⟨key, b⟩ :: t.views.filter fun e => decide (e.1 ≠ key)) := by
  have hown (t : DynamicRoutes) : (if owned then t.own key else t).views = t.views := by
    cases owned <;> rfl
  rcases b with ⟨shape, module⟩
  unfold put
  rw [hown]
  cases shape with
  | exact =>
    dsimp only
    rw [views_addExact]
  | wildcard => apply views_addPrefix

theorem views_unbindModule (module : String)
    : (t.unbindModule module).1.views = t.views.filter fun e => e.2.module != module := by
  apply views_retain t (fun _ m => m != module)

end views

theorem sorted_put {t : DynamicRoutes} (h : t.prefixes.Pairwise Longer) (key : String × String)
    (b : Binding) (owned : Bool)
    : (t.put key b owned).prefixes.Pairwise Longer := by
  have hown (t : DynamicRoutes) : (if owned then t.own key else t).prefixes = t.prefixes := by
    cases owned <;> rfl
  rcases b with ⟨shape, module⟩
  unfold put
  rw [hown]
  cases shape with
  | exact => apply h.sublist List.filter_sublist
  | wildcard =>
    have htotal : Std.Total Longer := ⟨fun a b => Nat.le_total _ _⟩
    have htrans : IsTrans _ Longer := ⟨fun a b c hab hbc => Nat.le_trans hbc hab⟩
    exact List.pairwise_insertionSort Longer _

theorem configKeys_put (t : DynamicRoutes) (key : String × String) (b : Binding) (owned : Bool)
    (k : String × String)
    : k ∈ (t.put key b owned).configKeys ↔ k ∈ t.configKeys ∨ owned = true ∧ k = key := by
  rcases b with ⟨shape, module⟩
  cases owned with
  | false => cases shape <;> simp [put, addExact, addPrefix, remove]
  | true =>
    have hiff : k ∈ t.configKeys ∧ ¬k = key ∨ k = key ↔ k ∈ t.configKeys ∨ k = key := by
      tauto
    cases shape <;> simpa [put, addExact, addPrefix, remove, own] using hiff

theorem bindOwned_of_bindingOf_eq_none (debug : String → String) (t : DynamicRoutes)
    {method path module : String} (h : bindingOf method path module = none) (owned : Bool)
    : ∃ e, bindOwned debug t method path module owned = .error e := by
  unfold bindingOf at h
  unfold bindOwned
  cases hm : normalizeMethod method with
  | none => exact ⟨_, rfl⟩
  | some m =>
    cases hp : normalizeRoutePath path with
    | none => exact ⟨_, rfl⟩
    | some p =>
      simp only [hm, hp] at h
      split at h
      . cases h
      . next hmodule =>
        dsimp only
        rw [if_pos (by simpa using hmodule)]
        exact ⟨_, rfl⟩

theorem bindOwned_of_bindingOf (debug : String → String) (t : DynamicRoutes)
    {method path module : String} {key : String × String} {b : Binding}
    (h : bindingOf method path module = some (key, b)) (owned : Bool)
    : bindOwned debug t method path module owned
        =
      if !t.contains key && decide (maxBindings ≤ t.size) then
        .error ("dynamic route table full (" ++ toString maxBindings ++ " bindings)")
      else
        .ok (t.put key b owned) := by
  unfold bindingOf at h
  unfold bindOwned
  split at h
  . next m p hm hp =>
    split at h
    . next hmodule =>
      cases h
      simp only [hm, hp, hmodule]
      rw [if_neg (by simp)]
      unfold put BindingShape.of
      by_cases hsuffix : "/*".toList.isSuffixOf p.toList = true
      . simp only [if_pos hsuffix]
      . simp only [if_neg hsuffix]
    . cases h
  . cases h

end DynamicRoutes

open DynamicRoutes

structure Refines (t : DynamicRoutes) (a : BindingMap) : Prop where
  views : t.views.Perm a.bindings.entries
  sorted : t.prefixes.Pairwise Longer
  owned : ∀ key, key ∈ t.configKeys ↔ key ∈ a.owned

namespace Refines

variable {t : DynamicRoutes} {a : BindingMap}

theorem empty : Refines {} {} where
  views := List.Perm.refl _
  sorted := List.Pairwise.nil
  owned := by
    intro key
    simp

theorem mem_iff (h : Refines t a) {key : String × String} {b : Binding}
    : ⟨key, b⟩ ∈ t.views ↔ a.bindings.lookup key = some b := by
  rw [h.views.mem_iff, ← Option.mem_def, AList.mem_lookup_iff]

theorem contains_iff (h : Refines t a) (key : String × String)
    : t.contains key = true ↔ (a.bindings.lookup key).isSome = true := by
  rw [DynamicRoutes.contains_iff, Option.isSome_iff_exists]
  simp only [h.mem_iff]

theorem full_iff (h : Refines t a) (key : String × String)
    : (!t.contains key && decide (maxBindings ≤ t.size)) = true ↔ a.full key := by
  unfold BindingMap.full
  rw [Bool.and_eq_true, Bool.not_eq_true', ← Bool.not_eq_true, h.contains_iff, decide_eq_true_iff,
    size_eq, h.views.length_eq, Option.not_isSome_iff_eq_none]

theorem put (h : Refines t a) (key : String × String) (b : Binding) (owned : Bool)
    : Refines (t.put key b owned)
        { bindings := a.bindings.insert key b
          owned := if owned then insert key a.owned else a.owned } where
  views := by
    apply (views_put t key b owned).trans
    rw [AList.entries_insert]
    apply List.Perm.cons
    change (List.filter _ _).Perm (a.bindings.erase key).entries
    rw [AList.erase_eq_retain]
    apply h.views.filter
  sorted := sorted_put h.sorted key b owned
  owned := by
    intro k
    rw [configKeys_put, h.owned]
    cases owned with
    | false => simp
    | true =>
      simp only [true_and, if_true, Finset.mem_insert]
      tauto

theorem bindOwned (debug : String → String) (h : Refines t a) (method path module : String)
    (owned : Bool)
    : (∀ next, DynamicRoutes.bindOwned debug t method path module owned = .ok next →
        Refines next (a.bindRoute method path module owned))
      ∧ ∀ e, DynamicRoutes.bindOwned debug t method path module owned = .error e →
        Refines t (a.bindRoute method path module owned) := by
  unfold BindingMap.bindRoute BindingMap.bind
  cases hbinding : bindingOf method path module with
  | none =>
    rcases bindOwned_of_bindingOf_eq_none debug t hbinding owned with ⟨e, he⟩
    rw [he]
    exact ⟨fun _ hok => (nomatch hok), fun _ _ => h⟩
  | some x =>
    rcases x with ⟨key, b⟩
    rw [bindOwned_of_bindingOf debug t hbinding]
    dsimp only
    by_cases hfull : a.full key
    . rw [if_pos hfull, if_pos ((h.full_iff key).mpr hfull)]
      exact ⟨fun _ hok => (nomatch hok), fun _ _ => h⟩
    . rw [if_neg hfull, if_neg ((h.full_iff key).not.mpr hfull)]
      refine ⟨?_, fun _ herror => (nomatch herror)⟩
      intro next hok
      cases hok
      apply h.put

theorem unbind (h : Refines t a) (key : String × String)
    : Refines { t.remove key with configKeys := t.configKeys.filter fun k => k != key }
        (a.unbind key) where
  views := by
    change (t.remove key).views.Perm (a.bindings.erase key).entries
    rw [views_remove, AList.erase_eq_retain]
    apply h.views.filter
  sorted := h.sorted.sublist List.filter_sublist
  owned := by
    intro k
    simp only [BindingMap.unbind, List.mem_filter, Finset.mem_erase, h.owned, bne_iff_ne]
    tauto

theorem unbindModule (h : Refines t a) (module : String)
    : Refines (t.unbindModule module).1 (a.unbindModule module) := by
  have hviews : (t.unbindModule module).1.views.Perm (a.unbindModule module).bindings.entries := by
    rw [views_unbindModule]
    apply h.views.filter
  refine ⟨hviews, h.sorted.sublist List.filter_sublist, ?_⟩
  intro k
  -- The keys are tested against the views that are left.
  have hcontains : (t.unbindModule module).1.contains k = true
      ↔ ((a.unbindModule module).bindings.lookup k).isSome = true := by
    rw [DynamicRoutes.contains_iff, Option.isSome_iff_exists]
    simp only [hviews.mem_iff, ← AList.mem_lookup_iff, Option.mem_def]
  have hleft : k ∈ (t.unbindModule module).1.configKeys
      ↔ k ∈ t.configKeys ∧ (t.unbindModule module).1.contains k = true := by
    apply List.mem_filter
  rw [hleft, hcontains, h.owned]
  simp [BindingMap.unbindModule]

theorem kept (h : Refines t a)
    : Refines (t.configKeys.foldl remove { t with configKeys := [] }) a.kept := by
  have hframe (keys : List (String × String)) (t : DynamicRoutes)
      : (keys.foldl remove t).prefixes.Sublist t.prefixes
        ∧ (keys.foldl remove t).configKeys = t.configKeys := by
    induction keys generalizing t with
    | nil => exact ⟨List.Sublist.refl _, rfl⟩
    | cons k keys ih =>
      rcases ih (t.remove k) with ⟨hsub, hkeys⟩
      exact ⟨hsub.trans List.filter_sublist, hkeys⟩
  rcases hframe t.configKeys { t with configKeys := [] } with ⟨hsub, hkeys⟩
  refine ⟨?_, h.sorted.sublist hsub, ?_⟩
  . rw [views_foldl_remove]
    simp only [h.owned]
    apply h.views.filter
  . intro k
    rw [hkeys]
    simp [BindingMap.kept]

theorem reconcile (debug : String → String) (h : Refines t a) (routes : List DynamicRoute)
    : Refines (t.reconcile debug routes) (a.reconcile routes) := by
  unfold DynamicRoutes.reconcile BindingMap.reconcile
  dsimp only
  have hkept := h.kept
  generalize t.configKeys.foldl remove { t with configKeys := [] } = t₀ at hkept
  generalize a.kept = a₀ at hkept
  induction routes generalizing t₀ a₀ with
  | nil => exact hkept
  | cons r routes ih =>
    rcases hkept.bindOwned debug r.method r.path r.module true with ⟨hok, herror⟩
    apply ih
    dsimp only
    split
    . next next heq => exact hok next heq
    . next e heq => exact herror e heq

theorem exec (debug : String → String) (h : Refines t a) (op : RouteOp)
    : Refines (t.exec debug op) (a.exec op) := by
  cases op with
  | bind method path module =>
    rcases h.bindOwned debug method path module false with ⟨hok, herror⟩
    unfold DynamicRoutes.exec DynamicRoutes.bind BindingMap.exec
    dsimp only
    split
    . next next heq => exact hok next heq
    . next e heq => exact herror e heq
  | unbind method path =>
    unfold DynamicRoutes.exec BindingMap.exec DynamicRoutes.unbind routeKey
    cases hm : normalizeMethod method with
    | none => simpa [hm] using h
    | some m =>
      cases hp : normalizeRoutePath path with
      | none => simpa [hm, hp] using h
      | some p =>
        simp only [hm, hp, Option.elim_some]
        exact h.unbind (m, basePath p)
  | unbindModule module => exact h.unbindModule module
  | reconcile routes => exact h.reconcile debug routes

theorem lookup_exact (h : Refines t a) {key : String × String} {module : String}
    : t.exact.lookup key = some module ↔ a.bindings.lookup key = some ⟨.exact, module⟩ := by
  rw [← h.mem_iff, ← Option.mem_def, AList.mem_lookup_iff]
  unfold DynamicRoutes.views
  simp

theorem mem_prefixes (h : Refines t a) {key : String × String} {module : String}
    : (key, module) ∈ t.prefixes ↔ a.bindings.lookup key = some ⟨.wildcard, module⟩ := by
  rw [← h.mem_iff]
  unfold DynamicRoutes.views
  simp

end Refines

theorem covers_iff {base path : String} : covers base path = true ↔ BindingMap.Under base path := by
  unfold covers BindingMap.Under
  rw [Bool.and_eq_true, startsWith_iff]
  constructor
  . rintro ⟨⟨rest, hrest⟩, hhead⟩
    rw [← hrest, List.drop_left] at hhead
    cases rest with
    | nil =>
      left
      rw [← String.toList_inj, ← hrest, List.append_nil]
    | cons c rest =>
      right
      have hc : c = '/' := by simpa using hhead
      rw [← hrest, hc]
      exact ⟨rest, by simp⟩
  . rintro (rfl | ⟨rest, hrest⟩)
    . exact ⟨List.prefix_refl _, by simp⟩
    . rw [← hrest, List.append_assoc, List.drop_left]
      exact ⟨List.prefix_append .., by simp⟩

theorem startsWith_of_under {base path : String} (h : BindingMap.Under base path)
    : startsWith path base = true := by
  have hcovers := covers_iff.mpr h
  unfold covers at hcovers
  exact (Bool.and_eq_true_iff.mp hcovers).1

theorem Refines.dispatch {t : DynamicRoutes} {a : BindingMap} (h : Refines t a) (method path : String)
    : a.Dispatch (toAsciiUppercase method) path (t.lookup method path) := by
  unfold DynamicRoutes.lookup
  dsimp only
  cases hexact : t.exact.lookup (toAsciiUppercase method, path) with
  | some module => exact .exact (h.lookup_exact.mp hexact)
  | none =>
    have hnot : ∀ m, a.bindings.lookup (toAsciiUppercase method, path) ≠ some ⟨.exact, m⟩ := by
      intro m hm
      rw [h.lookup_exact.mpr hm] at hexact
      cases hexact
    cases hfind : t.prefixes.find? fun b =>
        b.1.1 == toAsciiUppercase method && covers b.1.2 path with
    | none =>
      apply BindingMap.Dispatch.unbound hnot
      intro base m hm hunder
      rw [List.find?_eq_none] at hfind
      apply hfind _ (h.mem_prefixes.mpr hm)
      simp [covers_iff.mpr hunder]
    | some b =>
      rcases b with ⟨⟨m, base⟩, module⟩
      rcases List.find?_eq_some_iff_append.mp hfind with ⟨htest, before, after, hsplit, hbefore⟩
      rw [Bool.and_eq_true, beq_iff_eq] at htest
      rcases htest with ⟨rfl, hcovers⟩
      have hunder : BindingMap.Under base path := covers_iff.mp hcovers
      apply BindingMap.Dispatch.longest hnot _ hunder
      . intro base' m hm hunder' hne
        have hmem := h.mem_prefixes.mpr hm
        have hsorted := h.sorted
        rw [hsplit, List.pairwise_append] at hsorted
        rw [hsplit, List.mem_append] at hmem
        rcases hmem with hmem | hmem
        . have := hbefore _ hmem
          simp [covers_iff.mpr hunder'] at this
        . rcases List.mem_cons.mp hmem with heq | hmem
          . cases heq
            contradiction
          . have hle := longer_iff.mp ((List.pairwise_cons.mp hsorted.2.1).1 _ hmem)
            have hlen : len base' ≠ len base := by
              intro hlen
              apply hne
              apply eq_of_startsWith (startsWith_of_under hunder') (startsWith_of_under hunder) hlen
            omega
      . apply h.mem_prefixes.mp
        rw [hsplit]
        simp

namespace BindingMap

structure Bounded (a : BindingMap) : Prop where
  size : a.bindings.entries.length ≤ maxBindings
  owned : ∀ key ∈ a.owned, (a.bindings.lookup key).isSome = true

namespace Bounded

variable {a : BindingMap}

theorem empty : Bounded {} where
  size := by simp
  owned := by simp

theorem insert_isSome (m : AList fun _ : String × String => Binding) (key k : String × String)
    (b : Binding) (h : k = key ∨ (m.lookup k).isSome = true)
    : ((m.insert key b).lookup k).isSome = true := by
  by_cases hk : k = key
  . subst hk
    rw [AList.lookup_insert]
    rfl
  . rw [AList.lookup_insert_ne hk]
    exact h.resolve_left hk

theorem bind (h : a.Bounded) (key : String × String) (b : Binding) (owned : Bool)
    : (a.bind key b owned).Bounded := by
  unfold BindingMap.bind
  split
  . exact h
  . next hfull =>
    constructor
    . have hsize := h.size
      dsimp only
      rw [AList.length_entries_insert]
      unfold full at hfull
      split
      . exact hsize
      . next hnone =>
        rw [Option.not_isSome_iff_eq_none] at hnone
        have : ¬maxBindings ≤ a.bindings.entries.length := fun hle => hfull ⟨hnone, hle⟩
        omega
    . intro k hk
      apply insert_isSome
      cases owned with
      | false =>
        right
        exact h.owned k hk
      | true =>
        rcases Finset.mem_insert.mp hk with hkey | hk
        . left
          assumption
        . right
          exact h.owned k hk

theorem bindRoute (h : a.Bounded) (method path module : String) (owned : Bool)
    : (a.bindRoute method path module owned).Bounded := by
  unfold BindingMap.bindRoute
  split
  . apply h.bind
  . exact h

theorem unbind (h : a.Bounded) (key : String × String) : (a.unbind key).Bounded where
  size := by
    change (a.bindings.erase key).entries.length ≤ _
    rw [AList.erase_eq_retain]
    apply Nat.le_trans (List.length_filter_le _ _) h.size
  owned := by
    intro k hk
    rcases Finset.mem_erase.mp hk with ⟨hne, hk⟩
    change ((a.bindings.erase key).lookup k).isSome = true
    rw [AList.lookup_erase_ne hne]
    exact h.owned k hk

theorem unbindModule (h : a.Bounded) (module : String) : (a.unbindModule module).Bounded where
  size := Nat.le_trans (List.length_filter_le _ _) h.size
  owned := by
    intro k hk
    exact (Finset.mem_filter.mp hk).2

theorem reconcile (h : a.Bounded) (routes : List DynamicRoute) : (a.reconcile routes).Bounded := by
  have hkept : a.kept.Bounded := by
    constructor
    . apply Nat.le_trans (List.length_filter_le _ _) h.size
    . simp [kept]
  unfold BindingMap.reconcile
  generalize a.kept = a₀ at hkept
  induction routes generalizing a₀ with
  | nil => exact hkept
  | cons r routes ih =>
    apply ih
    apply hkept.bindRoute

theorem exec (h : a.Bounded) (op : RouteOp) : (a.exec op).Bounded := by
  cases op with
  | bind method path module => exact h.bindRoute method path module false
  | unbind method path =>
    change ((routeKey method path).elim a a.unbind).Bounded
    cases routeKey method path with
    | none => exact h
    | some key => exact h.unbind key
  | unbindModule module => exact h.unbindModule module
  | reconcile routes => exact h.reconcile routes

end Bounded

end BindingMap

theorem refines_of_ops (debug : String → String) (ops : List RouteOp)
    : Refines (ops.foldl (DynamicRoutes.exec debug) {}) (ops.foldl BindingMap.exec {})
      ∧ (ops.foldl BindingMap.exec {}).Bounded := by
  induction ops using List.reverseRecOn with
  | nil => exact ⟨Refines.empty, BindingMap.Bounded.empty⟩
  | append_singleton ops op ih =>
    rw [List.foldl_append, List.foldl_append]
    exact ⟨ih.1.exec debug op, ih.2.exec op⟩

end OpenRusty
