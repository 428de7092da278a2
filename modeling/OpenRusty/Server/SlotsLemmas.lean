import OpenRusty.Core.Validate
import OpenRusty.K8s.WatchLemmas
import OpenRusty.Lib.FinMap
import OpenRusty.Server.Slots

/-!
This module contains the proof of when the hand-overs of the watch loops converge. What a loop publishes
is the fold of the slots at the time of its own update, so the last one to publish has to be the last
one that folded; and the slots are those of the namespaces only if no namespace is watched twice.
-/

namespace OpenRusty

namespace Snapshot

variable {T : Type} [ResourceMeta T]

omit [ResourceMeta T] in
theorem mem_iter {snap : Snapshot T} {key : String × String} {item : T}
    : (key, item) ∈ snap.iter ↔ snap.items.lookup key = some item := by
  unfold iter
  rw [List.mem_insertionSort, List.mem_map, ← Option.mem_def, AList.mem_lookup_iff]
  constructor
  . rintro ⟨e, he, heq⟩
    cases heq
    exact he
  . intro h
    exact ⟨_, h, rfl⟩

theorem find_iter {snap : Snapshot T} (h : snap.Keyed) (key : String × String)
    : ((snap.iter.map Prod.snd).reverse.find? fun item => decide (keyOf item = key))
      = snap.items.lookup key := by
  have hmem (item : T) : item ∈ (snap.iter.map Prod.snd).reverse
      ↔ snap.items.lookup (keyOf item) = some item := by
    rw [List.mem_reverse, List.mem_map]
    constructor
    . rintro ⟨⟨k, item'⟩, hiter, heq⟩
      cases heq
      have hlookup := mem_iter.mp hiter
      rw [h k item' hlookup]
      exact hlookup
    . intro hlookup
      exact ⟨(keyOf item, item), mem_iter.mpr hlookup, rfl⟩
  cases hfind : (snap.iter.map Prod.snd).reverse.find? fun item => decide (keyOf item = key) with
  | some item =>
    have hkey : keyOf item = key := by
      simpa using List.find?_some hfind
    have hlookup := (hmem item).mp (List.mem_of_find?_eq_some hfind)
    rw [hkey] at hlookup
    exact hlookup.symm
  | none =>
    cases hlookup : snap.items.lookup key with
    | none => rfl
    | some item =>
      rw [List.find?_eq_none] at hfind
      have hkey := h key item hlookup
      have hitem : item ∈ (snap.iter.map Prod.snd).reverse := by
        rw [hmem, hkey, hlookup]
      exact absurd (by simpa using hkey) (hfind item hitem)

end Snapshot

namespace HandOvers

variable {T : Type} [ResourceMeta T]

def lookupSlot (key : String × String) (slot : Option (Snapshot T)) : Option T :=
  slot.bind fun snap => snap.items.lookup key

theorem lookup_mergeSlots {slots : List (Option (Snapshot T))}
    (h : ∀ snap, some snap ∈ slots → snap.Keyed) (resourceVersion : String) (key : String × String)
    : (mergeSlots slots resourceVersion).items.lookup key
      = slots.reverse.findSome? (lookupSlot key) := by
  unfold mergeSlots Snapshot.replaceFromList
  dsimp only
  rw [AList.lookup_foldl_insert Snapshot.keyOf fun item => item]
  simp only [AList.lookup_empty, Option.or_none, Option.map_id', beq_eq_decide]
  rw [List.reverse_flatMap, List.find?_flatMap]
  have hslots : ∀ snap, some snap ∈ slots.reverse → snap.Keyed := by
    intro snap hsnap
    apply h
    simpa using hsnap
  generalize slots.reverse = rest at hslots
  induction rest with
  | nil => rfl
  | cons slot rest ih =>
    have hrest : ∀ snap, some snap ∈ rest → snap.Keyed := by
      intro snap hsnap
      apply hslots
      simp [hsnap]
    rw [List.findSome?_cons, List.findSome?_cons, ih hrest]
    cases slot with
    | none => rfl
    | some snap =>
      have hfind := Snapshot.find_iter (hslots snap (by simp)) key
      simp only [Function.comp_apply, Option.elim_some, hfind, lookupSlot, Option.bind_some]

def latest (paths : List String) (folds : List (Nat × Snapshot T)) (path : String)
    : Option (Snapshot T) :=
  (folds.reverse.find? fun f => paths[f.1]? == some path).map Prod.snd

def Converged (paths : List String) (s : HandOvers T) : Prop :=
  ∀ key, s.published.items.lookup key
    = paths.reverse.findSome? fun path => lookupSlot key (latest paths s.folds path)

omit [ResourceMeta T] in
theorem latest_concat (paths : List String) (folds : List (Nat × Snapshot T)) (i : Nat)
    (snap : Snapshot T) (path : String)
    : latest paths (folds ++ [(i, snap)]) path
      = if paths[i]? = some path then some snap else latest paths folds path := by
  unfold latest
  rw [List.reverse_append, List.reverse_singleton, List.singleton_append, List.find?_cons]
  split
  . next h =>
    rw [if_pos (by simpa using h)]
    rfl
  . next h =>
    rw [if_neg (by simpa using h)]

omit [ResourceMeta T] in
theorem map_latest_concat {paths : List String} (h : paths.Nodup) (folds : List (Nat × Snapshot T))
    (i : Nat) (snap : Snapshot T)
    : paths.map (latest paths (folds ++ [(i, snap)]))
      = (paths.map (latest paths folds)).set i (some snap) := by
  apply List.ext_getElem?
  intro j
  rw [List.getElem?_map, List.getElem?_set, List.getElem?_map]
  cases hpath : paths[j]? with
  | none =>
    have hlt := List.getElem?_eq_none_iff.mp hpath
    split
    . next heq =>
      rw [if_neg]
      . rfl
      . rw [List.length_map]
        omega
    . rfl
  | some path =>
    have hlt := (List.getElem?_eq_some_iff.mp hpath).1
    rw [Option.map_some, latest_concat]
    by_cases hij : i = j
    . subst hij
      rw [if_pos hpath, if_pos rfl, if_pos (by simpa using hlt)]
    . rw [if_neg hij, if_neg]
      . rfl
      . intro hi
        apply hij
        have hlt' := (List.getElem?_eq_some_iff.mp hi).1
        exact (List.getElem?_inj hlt' h).mp (by rw [hi, hpath])

/-- A loop that publishes while no other one is about to do so has folded after all others. -/
def PublishesLatest (p : Loops T) (e : Pool.Event Empty (HandOverStep T)) : Prop :=
  match e with
  | .step i .publish =>
    (∀ t ∈ p.threads, t.index ≠ i → t.merged.isNone) → p.shared.folds.getLast?.map Prod.fst = some i
  | _ => True

instance (p : Loops T) (e : Pool.Event Empty (HandOverStep T)) : Decidable (PublishesLatest p e) := by
  unfold PublishesLatest
  split <;> infer_instance

theorem act_cases {s s' : HandOvers T} {t t' : WatchLoop T} {x : HandOverStep T}
    (h : act s t x = some (s', t'))
    : (∃ incoming, x = .fold incoming ∧ t.merged = none
        ∧ s' = { s with
            slots := s.slots.set t.index (some incoming.toSnapshot)
            folds := s.folds ++ [(t.index, incoming.toSnapshot)] }
        ∧ t' = { t with merged := some (mergeSlots s'.slots incoming.resourceVersion) })
        ∨
      ∃ merged, x = .publish ∧ t.merged = some merged
        ∧ s' = { s with published := merged } ∧ t' = { t with merged := none } := by
  unfold act at h
  split at h
  . next hmerged =>
    cases h
    left
    exact ⟨_, rfl, hmerged, rfl, rfl⟩
  . next hmerged =>
    cases h
    right
    exact ⟨_, rfl, hmerged, rfl, rfl⟩
  . cases h

theorem index_of_act {s s' : HandOvers T} {t t' : WatchLoop T} {x : HandOverStep T}
    (h : act s t x = some (s', t'))
    : t'.index = t.index := by
  rcases act_cases h with ⟨_, _, _, _, rfl⟩ | ⟨_, _, _, _, rfl⟩
  . rfl
  . rfl

structure Inv (paths : List String) (p : Loops T) : Prop where
  index : ∀ (i : Nat) t, p.threads[i]? = some t → t.index = i
  slots : p.shared.slots = paths.map (latest paths p.shared.folds)
  keyed : ∀ f ∈ p.shared.folds, f.2.Keyed
  last : ∀ (i : Nat) t merged, p.threads[i]? = some t → p.shared.folds.getLast?.map Prod.fst = some i →
    t.merged = some merged → merged.SameItems (mergeSlots p.shared.slots "")
  published : (∀ (i : Nat) t, p.threads[i]? = some t → t.merged = none) →
    p.shared.published.SameItems (mergeSlots p.shared.slots "")

theorem inv_init (paths : List String) : Inv paths (init paths : Loops T) where
  index := by
    intro i t ht
    simp only [init, List.getElem?_map, Option.map_eq_some_iff] at ht
    rcases ht with ⟨j, hj, rfl⟩
    rcases List.getElem?_eq_some_iff.mp hj with ⟨hlt, rfl⟩
    simp
  slots := by
    rfl
  keyed := by
    intro f hf
    cases hf
  last := by
    intro i t merged _ hlast
    cases hlast
  published := by
    intro _ key
    rw [lookup_mergeSlots]
    . symm
      rw [AList.lookup_eq_none.mpr]
      . rw [List.findSome?_eq_none_iff]
        intro slot hslot
        simp only [init, List.mem_reverse, List.mem_map] at hslot
        rcases hslot with ⟨_, _, rfl⟩
        rfl
      . simp [init, Snapshot.new]
    . intro snap hsnap
      simp [init] at hsnap

section

variable {paths : List String} {p : Loops T} {i : Nat} {t : WatchLoop T}

theorem Inv.fold (hpaths : paths.Nodup) (h : Inv paths p) (ht : p.threads[i]? = some t)
    (incoming : KeyedSnapshot T) {s : HandOvers T} {t' : WatchLoop T}
    (hs : s = { p.shared with
      slots := p.shared.slots.set t.index (some incoming.toSnapshot)
      folds := p.shared.folds ++ [(t.index, incoming.toSnapshot)] })
    (ht' : t' = { t with merged := some (mergeSlots s.slots incoming.resourceVersion) })
    (hindex : ∀ (j : Nat) u, (p.threads.set i t')[j]? = some u → u.index = j)
    : Inv paths { shared := s, threads := p.threads.set i t' } := by
  have hlt := (List.getElem?_eq_some_iff.mp ht).1
  have hi := h.index i t ht
  subst hs
  constructor
  . exact hindex
  . dsimp only
    rw [map_latest_concat hpaths, h.slots]
  . intro f hf
    rw [List.mem_append] at hf
    cases hf with
    | inl hf => exact h.keyed f hf
    | inr hf =>
      cases List.mem_singleton.mp hf
      exact incoming.keyed
  -- The last one that folded is this loop, and it has merged the slots as they are now.
  . intro j u m hu hlast hm
    simp only [List.getLast?_concat, Option.map_some, Option.some.injEq] at hlast
    rcases Pool.getElem?_set_cases hu with ⟨rfl, rfl⟩ | ⟨hne, -⟩
    . rw [ht'] at hm
      cases hm
      intro key
      rfl
    . omega
  . intro hnone
    have := hnone i t' (List.getElem?_set_self hlt)
    rw [ht'] at this
    cases this

theorem Inv.publish (h : Inv paths p) (ht : p.threads[i]? = some t) {merged : Snapshot T}
    (hmerged : t.merged = some merged) (hok : PublishesLatest p (.step i .publish))
    {s : HandOvers T} {t' : WatchLoop T} (hs : s = { p.shared with published := merged })
    (ht' : t' = { t with merged := none })
    (hindex : ∀ (j : Nat) u, (p.threads.set i t')[j]? = some u → u.index = j)
    : Inv paths { shared := s, threads := p.threads.set i t' } := by
  subst hs
  constructor
  . exact hindex
  . exact h.slots
  . exact h.keyed
  . intro j u m hu hlast hm
    rcases Pool.getElem?_set_cases hu with ⟨rfl, rfl⟩ | ⟨-, hold⟩
    . rw [ht'] at hm
      cases hm
    . exact h.last j u m hold hlast hm
  . intro hnone
    apply h.last i t merged ht _ hmerged
    apply hok
    intro u hu hne
    rcases List.mem_iff_getElem?.mp hu with ⟨j, hj⟩
    have hij : i ≠ j := by
      intro heq
      apply hne
      rw [h.index j u hj, heq]
    have := hnone j u (by rw [List.getElem?_set_ne hij]; exact hj)
    rw [this]
    rfl

end

theorem Inv.step {paths : List String} (hpaths : paths.Nodup) {p q : Loops T}
    {e : Pool.Event Empty (HandOverStep T)} (h : Inv paths p) (hok : PublishesLatest p e)
    (hstep : step p e = some q)
    : Inv paths q := by
  rcases Pool.step_cases _ _ hstep with ⟨o, -, -⟩ | ⟨i, x, t, s, t', rfl, ht, hact, rfl⟩
  . cases o
  . have hindex : ∀ (j : Nat) u, (p.threads.set i t')[j]? = some u → u.index = j := by
      intro j u hu
      rcases Pool.getElem?_set_cases hu with ⟨rfl, rfl⟩ | ⟨-, hold⟩
      . rw [index_of_act hact, h.index _ _ ht]
      . exact h.index j u hold
    rcases act_cases hact with ⟨incoming, rfl, -, hs, ht'⟩ | ⟨merged, rfl, hmerged, hs, ht'⟩
    . exact h.fold hpaths ht incoming hs ht' hindex
    . exact h.publish ht hmerged hok hs ht' hindex

theorem Inv.converged {paths : List String} {p : Loops T} (h : Inv paths p)
    (hdone : ∀ t ∈ p.threads, t.merged.isNone)
    : Converged paths p.shared := by
  intro key
  have hnone : ∀ (i : Nat) t, p.threads[i]? = some t → t.merged = none := by
    intro i t ht
    rw [← Option.isNone_iff_eq_none]
    exact hdone t (List.mem_of_getElem? ht)
  rw [h.published hnone key, lookup_mergeSlots]
  . rw [h.slots, ← List.map_reverse, List.findSome?_map]
    rfl
  . intro snap hsnap
    rw [h.slots, List.mem_map] at hsnap
    rcases hsnap with ⟨path, -, hlatest⟩
    unfold latest at hlatest
    rcases Option.map_eq_some_iff.mp hlatest with ⟨f, hf, rfl⟩
    apply h.keyed
    simpa using List.mem_of_find?_eq_some hf

end HandOvers

theorem nodup_resourcePaths {namespaces : List String} (h : namespaces.Nodup)
    (api resource query : String)
    : (resourcePaths api resource query namespaces).Nodup := by
  unfold resourcePaths
  dsimp only
  split
  . apply List.nodup_singleton
  . apply h.map
    intro ns ns' heq
    simpa using heq

namespace HandOvers

variable {T : Type} [ResourceMeta T]

theorem converged_of_publishesLatest {namespaces : List String} (hnodup : namespaces.Nodup)
    (api resource query : String) {es : List (Pool.Event Empty (HandOverStep T))} {p : Loops T}
    (hok : Machine.Guarded step PublishesLatest (init (resourcePaths api resource query namespaces)) es)
    (hrun : Machine.run step (init (resourcePaths api resource query namespaces)) es = some p)
    (hdone : ∀ t ∈ p.threads, t.merged.isNone)
    : Converged (resourcePaths api resource query namespaces) p.shared := by
  have hpaths := nodup_resourcePaths hnodup api resource query
  apply Inv.converged _ hdone
  apply Machine.inv_of_run _ (inv_init _) hok hrun
  intro p e q hinv hok hstep
  exact hinv.step hpaths hok hstep

def namedIngress (ns name : String) : Ingress := { metadata := { nspace := ns, name := name } }

def listingOf (ns name : String) : KeyedSnapshot Ingress := .ofList [namedIngress ns name] "1"

def inOrderRun : List (Pool.Event Empty (HandOverStep Ingress)) :=
  [ .step 0 (.fold (listingOf "a" "x")), .step 1 (.fold (listingOf "b" "y")),
    .step 0 .publish, .step 1 .publish ]

theorem inOrderRun_converged
    : ∃ p, Machine.run step (init (ingressPaths ["a", "b"])) inOrderRun = some p
      ∧ Converged (ingressPaths ["a", "b"]) p.shared := by
  have hrun : (Machine.run step (init (ingressPaths ["a", "b"])) inOrderRun).isSome := by rfl
  rcases Option.isSome_iff_exists.mp hrun with ⟨p, hp⟩
  refine ⟨p, hp, ?_⟩
  apply converged_of_publishesLatest (by decide) _ _ _ (by decide) hp
  cases hp
  decide

def overtakenRun : List (Pool.Event Empty (HandOverStep Ingress)) :=
  [ .step 0 (.fold (listingOf "a" "x")), .step 1 (.fold (listingOf "b" "y")),
    .step 1 .publish, .step 0 .publish ]

theorem overtakenRun_diverges
    : IngressConfig.validate { namespaces := ["a", "b"] } = .ok ()
      ∧ ∃ p, Machine.run step (init (ingressPaths ["a", "b"])) overtakenRun = some p
        ∧ (∀ t ∈ p.threads, t.merged.isNone)
        ∧ ¬Converged (ingressPaths ["a", "b"]) p.shared := by
  have hrun : (Machine.run step (init (ingressPaths ["a", "b"])) overtakenRun).isSome := by rfl
  rcases Option.isSome_iff_exists.mp hrun with ⟨p, hp⟩
  refine ⟨by decide, p, hp, ?_, ?_⟩
  . cases hp
    decide
  . intro h
    have := h ("b", "y")
    cases hp
    revert this
    decide

end HandOvers

end OpenRusty
