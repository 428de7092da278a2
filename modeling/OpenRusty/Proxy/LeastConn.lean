import Mathlib.Algebra.Order.Field.Rat
import Mathlib.Algebra.Order.Field.Basic
import Mathlib.Data.List.GetD
import Mathlib.Data.List.MinMax
import OpenRusty.Lib.Word
import OpenRusty.Proxy.Balancer

/-!
This module contains what the pick by least connections (`balancer.rs`) comes to: the first candidate with
the least load, the load of a peer being the requests in flight on it per unit of its weight. The source
compares loads by products of 128 bits, `leastConnPick128` wraps them around where they do not fit.
-/

namespace OpenRusty

def leastConnPick128 (inFlight weights healthy : List Nat) : Option Nat :=
  match healthy with
  | [] => none
  | first :: rest =>
    some (rest.foldl (fun best i =>
      let lhs := Word.wrappingMul 128 (inFlight.getD i 0) (weights.getD best 0)
      let rhs := Word.wrappingMul 128 (inFlight.getD best 0) (weights.getD i 0)
      if lhs < rhs then i else best) first)

def load (inFlight weights : List Nat) (i : Nat) : ℚ := inFlight.getD i 0 / weights.getD i 0

structure Weighted (inFlight weights healthy : List Nat) : Prop where
  weight_pos : ∀ w ∈ weights, 0 < w
  lt_length : ∀ i ∈ healthy, i < inFlight.length ∧ i < weights.length

structure Loads (inFlight weights healthy : List Nat) : Prop extends Weighted inFlight weights healthy where
  inFlight_lt : ∀ n ∈ inFlight, n < 2 ^ 64
  weight_lt : ∀ w ∈ weights, w < 2 ^ 32

variable {inFlight weights healthy : List Nat} {i j : Nat}

namespace Weighted

theorem load_lt_iff (h : Weighted inFlight weights healthy) (hi : i ∈ healthy) (hj : j ∈ healthy)
    : load inFlight weights i < load inFlight weights j
        ↔
      inFlight.getD i 0 * weights.getD j 0 < inFlight.getD j 0 * weights.getD i 0 := by
  have hpos : ∀ i ∈ healthy, (0 : ℚ) < (weights.getD i 0 : Nat) := by
    intro i hi
    rw [List.getD_eq_getElem _ _ (h.lt_length i hi).2]
    exact_mod_cast h.weight_pos _ (List.getElem_mem (h.lt_length i hi).2)
  unfold load
  rw [div_lt_div_iff₀ (hpos i hi) (hpos j hj)]
  exact_mod_cast Iff.rfl

theorem of_subset (h : Weighted inFlight weights healthy) {part : List Nat} (hpart : part ⊆ healthy)
    : Weighted inFlight weights part :=
  { h with lt_length := fun j hj => h.lt_length j (hpart hj) }

theorem pick_eq_argmin (h : Weighted inFlight weights healthy)
    : leastConnPick inFlight weights healthy = healthy.argmin (load inFlight weights) := by
  unfold leastConnPick
  split
  . rfl
  . next first rest =>
    induction rest using List.reverseRecOn with
    | nil => rfl
    | append_singleton rest i ih =>
      have hinit := List.subset_append_left (first :: rest) [i]
      have hpick := ih (h.of_subset hinit)
      have hbest := hinit (List.argmin_mem hpick.symm)
      rw [← List.cons_append, List.argmin_concat, ← hpick, List.foldl_append, List.foldl_cons,
        List.foldl_nil]
      dsimp only
      simp only [load_lt_iff h (i := i) (by simp) hbest]
      split <;> rfl

end Weighted

namespace Loads

theorem mul_lt (h : Loads inFlight weights healthy) (hi : i ∈ healthy) (hj : j ∈ healthy)
    : inFlight.getD i 0 * weights.getD j 0 < 2 ^ 128 := by
  rw [List.getD_eq_getElem _ _ (h.lt_length i hi).1, List.getD_eq_getElem _ _ (h.lt_length j hj).2]
  have hflight := h.inFlight_lt _ (List.getElem_mem (h.lt_length i hi).1)
  have hweight := h.weight_lt _ (List.getElem_mem (h.lt_length j hj).2)
  calc
    _ ≤ 2 ^ 64 * 2 ^ 32 := Nat.mul_le_mul hflight.le hweight.le
    _ < 2 ^ 128 := by decide

theorem of_subset (h : Loads inFlight weights healthy) {part : List Nat} (hpart : part ⊆ healthy)
    : Loads inFlight weights part :=
  { h with lt_length := (h.toWeighted.of_subset hpart).lt_length }

theorem pick128_eq (h : Loads inFlight weights healthy)
    : leastConnPick128 inFlight weights healthy = leastConnPick inFlight weights healthy := by
  unfold leastConnPick128 leastConnPick
  split
  . rfl
  . next first rest =>
    congr 1
    induction rest generalizing first with
    | nil => rfl
    | cons i rest ih =>
      have hfirst : first ∈ first :: i :: rest := by simp
      have hi : i ∈ first :: i :: rest := by simp
      have hnext := h.of_subset (List.subset_cons_self first (i :: rest))
      have hstay := h.of_subset (List.cons_subset_cons first (List.subset_cons_self i rest))
      dsimp only
      rw [List.foldl_cons, List.foldl_cons, Word.wrappingMul_eq (h.mul_lt hi hfirst),
        Word.wrappingMul_eq (h.mul_lt hfirst hi)]
      split
      . exact ih i hnext
      . exact ih first hstay

end Loads

theorem leastConn_minimal (inFlight weights healthy : List Nat) (h : Loads inFlight weights healthy)
    : (∀ i ∈ healthy, ∀ j ∈ healthy, inFlight.getD i 0 * weights.getD j 0 < 2 ^ 128)
      ∧ (leastConnPick128 inFlight weights healthy).isSome = !healthy.isEmpty
      ∧ ∀ best, leastConnPick128 inFlight weights healthy = some best ↔
        best ∈ healthy
          ∧ (∀ i ∈ healthy, load inFlight weights best ≤ load inFlight weights i)
          ∧ ∀ i ∈ healthy, load inFlight weights i ≤ load inFlight weights best →
            healthy.idxOf best ≤ healthy.idxOf i := by
  refine ⟨fun i hi j hj => h.mul_lt hi hj, ?_, ?_⟩
  . unfold leastConnPick128
    cases healthy <;> rfl
  . intro best
    rw [h.pick128_eq, h.toWeighted.pick_eq_argmin, List.argmin_eq_some_iff]

theorem leastConn_minimal_tie
    : leastConnPick128 [3, 2, 1] [1, 2, 1] [0, 1, 2] = some 1
      ∧ ∀ i ∈ [0, 1, 2], load [3, 2, 1] [1, 2, 1] 1 ≤ load [3, 2, 1] [1, 2, 1] i := by
  have hloads : Loads [3, 2, 1] [1, 2, 1] [0, 1, 2] :=
    ⟨⟨by decide, by decide⟩, by decide, by decide⟩
  have hpick : leastConnPick128 [3, 2, 1] [1, 2, 1] [0, 1, 2] = some 1 := by decide
  exact ⟨hpick, (((leastConn_minimal _ _ _ hloads).2.2 1).mp hpick).2.1⟩

end OpenRusty
