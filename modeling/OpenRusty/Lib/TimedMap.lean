import Mathlib.Logic.Function.Basic

/-!
This module contains the ideal map whose entries may carry a deadline: a key is visible until the
deadline of its last entry is reached, and forever if that entry has none. Nothing is ever removed
because time passes.
-/

abbrev TimedMap (κ ν : Type) := κ → Option (ν × Option Nat)

namespace TimedMap

variable {κ ν : Type} [DecidableEq κ]

def empty : TimedMap κ ν := fun _ => none

def put (m : TimedMap κ ν) (k : κ) (v : ν) (deadline : Option Nat) : TimedMap κ ν :=
  Function.update m k (some (v, deadline))

def delete (m : TimedMap κ ν) (k : κ) : TimedMap κ ν :=
  Function.update m k none

def passed (deadline : Option Nat) (t : Nat) : Bool :=
  match deadline with
  | none => false
  | some d => decide (d ≤ t)

def visible (m : TimedMap κ ν) (k : κ) (t : Nat) : Option ν :=
  match m k with
  | none => none
  | some (v, deadline) => if passed deadline t then none else some v

@[simp]
theorem visible_put_self (m : TimedMap κ ν) (k : κ) (v : ν) (deadline : Option Nat) (t : Nat)
    : visible (m.put k v deadline) k t = if passed deadline t then none else some v := by
  simp [visible, put]

@[simp]
theorem visible_put_ne (m : TimedMap κ ν) {k k' : κ} (h : k' ≠ k) (v : ν) (deadline : Option Nat)
    (t : Nat)
    : visible (m.put k v deadline) k' t = visible m k' t := by
  simp [visible, put, h]

@[simp]
theorem visible_delete_self (m : TimedMap κ ν) (k : κ) (t : Nat)
    : visible (m.delete k) k t = none := by
  simp [visible, delete]

@[simp]
theorem visible_delete_ne (m : TimedMap κ ν) {k k' : κ} (h : k' ≠ k) (t : Nat)
    : visible (m.delete k) k' t = visible m k' t := by
  simp [visible, delete, h]

end TimedMap
