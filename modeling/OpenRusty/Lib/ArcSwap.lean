import Mathlib.Data.List.Chain

/-!
This module contains the theory of atomically swapped cells. A cell holds a shared pointer: loading it
gives a value together with its identity, and a compare-and-swap succeeds only if the value of the
given identity is still the current one. A pointer that is held cannot be reused, so the identity of a
value is its place in the order of all values that the cell ever held.
-/

structure ArcSwap (α : Type) where
  older : List α
  current : α

namespace ArcSwap

variable {α : Type}

def new (a : α) : ArcSwap α := { older := [], current := a }

def version (c : ArcSwap α) : Nat := c.older.length

def history (c : ArcSwap α) : List α := c.older ++ [c.current]

def store (c : ArcSwap α) (a : α) : ArcSwap α := { older := c.history, current := a }

def compareAndSwap (c : ArcSwap α) (expected : Nat) (a : α) : Bool × ArcSwap α :=
  if expected = c.version then (true, c.store a) else (false, c)

@[simp]
theorem current_store (c : ArcSwap α) (a : α) : (c.store a).current = a := by
  rfl

@[simp]
theorem history_store (c : ArcSwap α) (a : α) : (c.store a).history = c.history ++ [a] := by
  rfl

@[simp]
theorem version_store (c : ArcSwap α) (a : α) : (c.store a).version = c.version + 1 := by
  simp [version, store, history]

@[simp]
theorem getElem?_version (c : ArcSwap α) : c.history[c.version]? = some c.current := by
  simp [version, history]

theorem getElem?_store {c : ArcSwap α} {i : Nat} {b : α} (h : c.history[i]? = some b) (a : α)
    : (c.store a).history[i]? = some b := by
  rw [history_store, List.getElem?_append_left]
  . apply h
  . apply (List.getElem?_eq_some_iff.mp h).1

theorem isChain_store {R : α → α → Prop} {c : ArcSwap α} {a : α} (h : c.history.IsChain R)
    (hstore : R c.current a)
    : (c.store a).history.IsChain R := by
  rw [history_store]
  apply h.append
  . apply List.isChain_singleton
  . simpa [history] using hstore

theorem consecutive {R : α → α → Prop} {c : ArcSwap α} (h : c.history.IsChain R) {i : Nat} {a b : α}
    (ha : c.history[i]? = some a) (hb : c.history[i + 1]? = some b)
    : R a b := by
  rw [List.getElem?_eq_some_iff] at ha hb
  rcases ha with ⟨hi, rfl⟩
  rcases hb with ⟨hi', rfl⟩
  rw [List.isChain_iff_getElem] at h
  apply h

end ArcSwap
