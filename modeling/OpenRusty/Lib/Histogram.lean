import Mathlib.Data.List.Basic
import Mathlib.Logic.Function.Iterate
import OpenRusty.Lib.Word

/-!
This module contains the theory of histograms with cumulative buckets: an observation finds the first bound
that it is not beyond, and that bucket and all behind it count it. If a value that is not beyond a bound is not
beyond the later ones, then every bucket counts exactly the observations that are not beyond its own bound.
Counts that are made in one walk over a list of events with several counters are those of each counter alone.
-/

namespace Histogram

variable {φ : Type} (le : φ → φ → Bool) (bounds : List φ)

def index (x : φ) : Option Nat := bounds.findIdx? fun b => le x b

def observe (inc : Nat → Nat) (buckets : List Nat) (x : φ) : List Nat :=
  match index le bounds x with
  | some i => buckets.take i ++ (buckets.drop i).map inc
  | none => buckets

def Ascending : Prop := bounds.Pairwise fun a b => ∀ x, le x a = true → le x b = true

variable {le bounds} {inc : Nat → Nat} {buckets : List Nat} {x : φ}

@[simp]
theorem length_observe : (observe le bounds inc buckets x).length = buckets.length := by
  unfold observe
  split
  . rw [List.length_append, List.length_map, List.length_take, List.length_drop]
    omega
  . rfl

theorem index_le_iff (hasc : Ascending le bounds) {i j : Nat} {b : φ} (hi : index le bounds x = some i)
    (hj : bounds[j]? = some b)
    : i ≤ j ↔ le x b = true := by
  obtain ⟨hlt, hle, hbefore⟩ := List.findIdx?_eq_some_iff_getElem.mp hi
  obtain ⟨hjlt, hb⟩ := List.getElem?_eq_some_iff.mp hj
  subst hb
  constructor
  . intro hij
    rcases Nat.eq_or_lt_of_le hij with rfl | hij
    . exact hle
    . exact List.pairwise_iff_getElem.mp hasc i j hlt hjlt hij x hle
  . intro h
    by_contra hji
    exact hbefore j (by omega) h

theorem index_eq_none (hi : index le bounds x = none) {j : Nat} {b : φ} (hj : bounds[j]? = some b)
    : le x b = false := by
  have h := List.findIdx?_eq_none_iff.mp hi b (List.mem_of_getElem? hj)
  simpa using h

theorem getElem?_observe (hasc : Ascending le bounds) {j : Nat} {b : φ} (hj : bounds[j]? = some b)
    : (observe le bounds inc buckets x)[j]? = buckets[j]?.map fun n => if le x b then inc n else n := by
  unfold observe
  split
  . next i hi =>
    have hiff := index_le_iff hasc hi hj
    by_cases hij : i ≤ j
    . simp only [hiff.mp hij, if_true]
      rw [List.getElem?_append_right (by rw [List.length_take]; omega), List.length_take,
        List.getElem?_map, List.getElem?_drop]
      by_cases hlen : i ≤ buckets.length
      . rw [Nat.min_eq_left hlen, Nat.add_sub_cancel' hij]
      . rw [List.getElem?_eq_none (by omega), List.getElem?_eq_none (by omega)]
    . have hfalse : ¬le x b = true := fun h => hij (hiff.mpr h)
      have hsame : (buckets[j]?.map fun n => if le x b then inc n else n) = buckets[j]? := by simp [hfalse]
      rw [hsame]
      by_cases hlen : j < buckets.length
      . rw [List.getElem?_append_left (by rw [List.length_take]; omega), List.getElem?_take_of_lt (by omega)]
      . rw [List.getElem?_eq_none (by simp; omega), List.getElem?_eq_none (by omega)]
  . next hi =>
    rw [index_eq_none hi hj]
    simp

theorem getElem?_foldl_observe (hasc : Ascending le bounds) {j : Nat} {b : φ} (hj : bounds[j]? = some b)
    (xs : List φ)
    : (xs.foldl (observe le bounds inc) buckets)[j]?
        =
      buckets[j]?.map fun n => inc^[xs.countP fun x => le x b] n := by
  induction xs generalizing buckets with
  | nil => simp
  | cons x xs ih =>
    rw [List.foldl_cons, ih, getElem?_observe hasc hj, Option.map_map, List.countP_cons]
    congr 1
    funext n
    by_cases hx : le x b = true
    . simp [hx]
    . simp [hx]

theorem iterate_wrappingAdd (w k : Nat) {n : Nat} (hn : n < 2 ^ w)
    : (fun m => Word.wrappingAdd w m 1)^[k] n = (n + k) % 2 ^ w := by
  induction k with
  | zero => exact (Nat.mod_eq_of_lt hn).symm
  | succ k ih =>
    rw [Function.iterate_succ_apply', ih]
    unfold Word.wrappingAdd
    rw [Nat.mod_add_mod, Nat.add_assoc]

theorem foldl_part {σ α β ε : Type} (f : σ → β) (step : σ → ε → σ) (part : ε → List α) (add : β → α → β)
    (hstep : ∀ s e, f (step s e) = (part e).foldl add (f s)) (es : List ε) (s : σ)
    : f (es.foldl step s) = (es.flatMap part).foldl add (f s) := by
  induction es generalizing s with
  | nil => rfl
  | cons e es ih => rw [List.foldl_cons, ih, hstep, List.flatMap_cons, List.foldl_append]

end Histogram
