/-!
This module contains the theory of a cell that many readers watch. A write replaces the value and counts up
the version, a reader remembers the version that it has seen. Waiting for a change is over as soon as the
version is another one, or the cell is closed, so a write is not lost to a reader that does not wait yet.
-/

structure WatchCell (α : Type) where
  value : α
  version : Nat := 0
  closed : Bool := false
  deriving DecidableEq

namespace WatchCell

variable {α : Type}

def send (w : WatchCell α) (v : α) : WatchCell α := { w with value := v, version := w.version + 1 }

def close (w : WatchCell α) : WatchCell α := { w with closed := true }

def hasChanged (w : WatchCell α) (seen : Nat) : Option Bool :=
  if w.closed then none else some (decide (seen ≠ w.version))

def changed (w : WatchCell α) (seen : Nat) : Option (Bool × Nat) :=
  if seen ≠ w.version then
    some (true, w.version)
  else if w.closed then
    some (false, seen)
  else
    none

theorem hasChanged_eq_none {w : WatchCell α} {seen : Nat} : w.hasChanged seen = none ↔ w.closed = true := by
  unfold hasChanged
  split <;> simp_all

theorem changed_eq_none {w : WatchCell α} {seen : Nat}
    : w.changed seen = none ↔ seen = w.version ∧ w.closed = false := by
  unfold changed
  by_cases hseen : seen = w.version
  . simp [hseen]
  . simp [hseen]

theorem changed_eq_some {w : WatchCell α} {seen seen' : Nat} {ok : Bool} (h : w.changed seen = some (ok, seen'))
    : seen' = w.version ∧ (ok = true ∧ seen ≠ w.version ∨ ok = false ∧ seen = w.version ∧ w.closed = true) := by
  unfold changed at h
  by_cases hseen : seen = w.version
  . simp only [hseen, ne_eq, not_true_eq_false, if_false] at h
    split at h
    . next hclosed =>
      cases h
      exact ⟨rfl, .inr ⟨rfl, hseen, hclosed⟩⟩
    . cases h
  . rw [if_pos hseen] at h
    cases h
    exact ⟨rfl, .inl ⟨rfl, hseen⟩⟩

def Latched (w : WatchCell Bool) : Prop := w.value = true ↔ 0 < w.version

theorem latched_init : Latched { value := false } := by
  simp [Latched]

theorem Latched.send {w : WatchCell Bool} (_ : w.Latched) : (w.send true).Latched := by
  simp [Latched, WatchCell.send]

theorem Latched.close {w : WatchCell Bool} (h : w.Latched) : w.close.Latched := h

theorem Latched.changed_zero {w : WatchCell Bool} (h : w.Latched)
    : w.changed 0 ≠ none ↔ w.value = true ∨ w.closed = true := by
  rw [ne_eq, changed_eq_none, show w.value = true ↔ 0 < w.version from h]
  cases w.closed with
  | true => simp
  | false =>
    simp only [and_true, Bool.false_eq_true, or_false]
    omega

end WatchCell
