import Mathlib.Data.List.AList

/-!
This module contains the snapshot of the watched objects and the fold of watch events into it
(`snapshot.rs`), for any kind of object that has a namespace, a name and a resource version.
-/

namespace OpenRusty

class ResourceMeta (T : Type) where
  nspace : T → String
  name : T → String
  resourceVersion : T → String

inductive EventType where
  | added
  | modified
  | deleted
  | bookmark
  | error
  deriving DecidableEq, Repr

structure WatchEvent (T : Type) where
  eventType : EventType
  object : T
  deriving DecidableEq, Repr

structure Snapshot (T : Type) where
  items : AList fun _ : String × String => T
  resourceVersion : String

namespace Snapshot

variable {T : Type} [ResourceMeta T]

def new : Snapshot T := { items := ∅, resourceVersion := "" }

def keyOf (object : T) : String × String :=
  (ResourceMeta.nspace object, ResourceMeta.name object)

def advance (snap : Snapshot T) (object : T) : Snapshot T :=
  if ResourceMeta.resourceVersion object = "" then
    snap
  else
    { snap with resourceVersion := ResourceMeta.resourceVersion object }

def applyEvent (snap : Snapshot T) (event : WatchEvent T) : Snapshot T :=
  match event.eventType with
  | .added | .modified =>
    let next := snap.advance event.object
    { next with items := next.items.insert (keyOf event.object) event.object }
  | .deleted =>
    let next := snap.advance event.object
    { next with items := next.items.erase (keyOf event.object) }
  | .bookmark => snap.advance event.object
  | .error => snap

def replaceFromList (items : List T) (resourceVersion : String) : Snapshot T where
  items := items.foldl (fun m item => m.insert (keyOf item) item) ∅
  resourceVersion := resourceVersion

def Keyed (snap : Snapshot T) : Prop :=
  ∀ key item, snap.items.lookup key = some item → keyOf item = key

def SameItems (snap snap' : Snapshot T) : Prop :=
  ∀ key, snap.items.lookup key = snap'.items.lookup key

omit [ResourceMeta T] in
theorem SameItems.refl (snap : Snapshot T) : snap.SameItems snap := by
  intro key
  rfl

omit [ResourceMeta T] in
theorem SameItems.trans {a b c : Snapshot T} (hab : a.SameItems b) (hbc : b.SameItems c)
    : a.SameItems c := by
  intro key
  rw [hab key, hbc key]

omit [ResourceMeta T] in
theorem sameItems_iff_keys {snap snap' : Snapshot T}
    : (∀ key ∈ snap.items.keys ++ snap'.items.keys, snap.items.lookup key = snap'.items.lookup key)
        ↔
      snap.SameItems snap' := by
  constructor
  . intro h key
    by_cases hkey : key ∈ snap.items.keys ++ snap'.items.keys
    . exact h key hkey
    . simp only [List.mem_append, not_or] at hkey
      rw [AList.lookup_eq_none.mpr hkey.1, AList.lookup_eq_none.mpr hkey.2]
  . intro h key _
    exact h key

instance [DecidableEq T] (snap snap' : Snapshot T) : Decidable (snap.SameItems snap') :=
  decidable_of_iff _ sameItems_iff_keys

@[simp]
theorem advance_items (snap : Snapshot T) (object : T) : (snap.advance object).items = snap.items := by
  unfold advance
  split
  . rfl
  . rfl

theorem sameItems_applyEvent_bookmark (snap : Snapshot T) {event : WatchEvent T}
    (h : event.eventType = .bookmark)
    : snap.SameItems (snap.applyEvent event) := by
  intro key
  simp [applyEvent, h]

theorem keyed_new : (new : Snapshot T).Keyed := by
  intro key item h
  cases h

theorem Keyed.insert {snap : Snapshot T} (h : snap.Keyed) (object : T) (resourceVersion : String)
    : Keyed { items := snap.items.insert (keyOf object) object, resourceVersion := resourceVersion } := by
  intro key item hitem
  by_cases hkey : key = keyOf object
  . subst hkey
    rw [AList.lookup_insert] at hitem
    cases hitem
    rfl
  . rw [AList.lookup_insert_ne hkey] at hitem
    apply h key item hitem

theorem keyed_applyEvent {snap : Snapshot T} (h : snap.Keyed) (event : WatchEvent T)
    : (snap.applyEvent event).Keyed := by
  have hadvance : (snap.advance event.object).Keyed := by
    intro key item hitem
    rw [advance_items] at hitem
    apply h key item hitem
  unfold applyEvent
  split
  . apply hadvance.insert
  . apply hadvance.insert
  . intro key item hitem
    by_cases hkey : key = keyOf event.object
    . subst hkey
      rw [AList.lookup_erase] at hitem
      cases hitem
    . rw [AList.lookup_erase_ne hkey] at hitem
      apply hadvance key item hitem
  . apply hadvance
  . apply h

theorem keyed_replaceFromList (items : List T) (resourceVersion : String)
    : (replaceFromList items resourceVersion).Keyed := by
  have hfold : ∀ m : AList fun _ : String × String => T, Keyed ⟨m, resourceVersion⟩ →
      Keyed ⟨items.foldl (fun m item => m.insert (keyOf item) item) m, resourceVersion⟩ := by
    induction items with
    | nil =>
      intro m hm
      exact hm
    | cons item items ih =>
      intro m hm
      apply ih
      apply hm.insert
  apply hfold
  intro key item h
  cases h

end Snapshot

structure KeyedSnapshot (T : Type) [ResourceMeta T] extends Snapshot T where
  keyed : toSnapshot.Keyed

def KeyedSnapshot.ofList {T : Type} [ResourceMeta T] (items : List T) (resourceVersion : String)
    : KeyedSnapshot T where
  toSnapshot := .replaceFromList items resourceVersion
  keyed := Snapshot.keyed_replaceFromList items resourceVersion

end OpenRusty
