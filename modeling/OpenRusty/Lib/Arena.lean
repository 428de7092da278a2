import Mathlib.Order.CompletePartialOrder
import Mathlib.Order.Interval.Set.Disjoint

/-!
This module contains the theory of arenas that are handed out from the front: a mark is behind all ranges
that have been granted, and the next range starts at the mark or behind it. An `Arena` carries the proof that
its ranges are pairwise disjoint.
-/

namespace Arena

structure Range where
  start : Nat
  length : Nat
  deriving DecidableEq, Repr

namespace Range

def stop (r : Range) : Nat := r.start + r.length

def cells (r : Range) : Set Nat := Set.Ico r.start r.stop

theorem disjoint_of_le {r s : Range} (h : r.stop ≤ s.start) : Disjoint r.cells s.cells := by
  unfold cells
  apply Set.Ico_disjoint_Ico.mpr
  have := Nat.le_max_right r.start s.start
  have := Nat.min_le_left r.stop s.stop
  omega

end Range

end Arena

structure Arena where
  size : Nat
  mark : Nat
  granted : List Arena.Range
  inside : mark ≤ size
  below : ∀ r ∈ granted, r.stop ≤ mark
  disjoint : granted.Pairwise fun r s => Disjoint r.cells s.cells

namespace Arena

def new (size : Nat) : Arena where
  size := size
  mark := 0
  granted := []
  inside := Nat.zero_le _
  below := nofun
  disjoint := .nil

def grant (a : Arena) (r : Range) (hstart : a.mark ≤ r.start) (hstop : r.stop ≤ a.size) : Arena where
  size := a.size
  mark := r.stop
  granted := r :: a.granted
  inside := hstop
  below := by
    intro s hs
    rcases List.mem_cons.mp hs with rfl | hs
    . exact Nat.le_refl _
    . have hbelow := a.below s hs
      unfold Range.stop at hbelow ⊢
      omega
  disjoint := by
    rw [List.pairwise_cons]
    refine ⟨?_, a.disjoint⟩
    intro s hs
    exact (Range.disjoint_of_le (Nat.le_trans (a.below s hs) hstart)).symm

theorem stop_le (a : Arena) {r : Range} (hr : r ∈ a.granted) : r.stop ≤ a.size :=
  Nat.le_trans (a.below r hr) a.inside

end Arena
