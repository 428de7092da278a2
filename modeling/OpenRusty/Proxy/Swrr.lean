import Mathlib.Data.List.GetD
import OpenRusty.Lib.Rotation
import OpenRusty.Lib.Word
import OpenRusty.Proxy.Balancer

/-!
This module contains what a pick of the smooth weighted round robin (`balancer.rs`) does to the effective
weights: it is a turn of a rotation in which every peer takes part. The same pick on signed machine words
is `swrrNext64`, with `none` for an overflow.
-/

namespace OpenRusty

def addWeights64 (current : List Int) (weights : List Nat) (total : Int) : Option (List Int × Int) :=
  match current, weights with
  | eff :: current, weight :: weights =>
    (Word.signed 64 (eff + weight)).bind fun eff =>
      (Word.signed 64 (total + weight)).bind fun total =>
        (addWeights64 current weights total).map fun x => (eff :: x.1, x.2)
  | _, _ => some ([], total)

def swrrNext64 (weights : List Nat) (current : List Int) : Option (Nat × List Int) :=
  (addWeights64 current weights 0).bind fun x =>
    let best := argmax x.1
    (Word.signed 64 (x.1.getD best 0 - x.2)).map fun paid => (best, x.1.set best paid)

def swrrRun (weights : List Nat) (picks : Nat) (current : List Int) : List Nat × List Int :=
  match picks with
  | 0 => ([], current)
  | picks + 1 =>
    let before := swrrRun weights picks current
    let next := swrrNext weights before.2
    (before.1 ++ [next.1], next.2)

def swrrRun64 (weights : List Nat) (picks : Nat) (current : List Int) : Option (List Nat × List Int) :=
  match picks with
  | 0 => some ([], current)
  | picks + 1 =>
    (swrrRun64 weights picks current).bind fun before =>
      (swrrNext64 weights before.2).map fun next => (before.1 ++ [next.1], next.2)

section argmax

variable (current : List Int)

theorem argmax_range (n : Nat)
    : let best := (List.range' 1 n).foldl
        (fun best i => if current.getD best 0 < current.getD i 0 then i else best) 0
      best ≤ n ∧ (∀ j ≤ n, current.getD j 0 ≤ current.getD best 0)
        ∧ ∀ j < best, current.getD j 0 < current.getD best 0 := by
  induction n with
  | zero => simp
  | succ n ih =>
    rw [List.range'_1_concat, List.foldl_append, List.foldl_cons, List.foldl_nil]
    dsimp only at ih ⊢
    generalize (List.range' 1 n).foldl
      (fun best i => if current.getD best 0 < current.getD i 0 then i else best) 0 = best at ih ⊢
    rcases ih with ⟨hle, hmax, hfirst⟩
    split
    . next hlt =>
      refine ⟨by omega, ?_, ?_⟩
      . intro j hj
        by_cases heq : j = 1 + n
        . rw [heq]
        . exact Int.le_trans (hmax j (by omega)) (Int.le_of_lt hlt)
      . intro j hj
        exact Int.lt_of_le_of_lt (hmax j (by omega)) hlt
    . next hge =>
      refine ⟨by omega, ?_, hfirst⟩
      intro j hj
      by_cases heq : j = 1 + n
      . rw [heq]
        exact Int.not_lt.mp hge
      . exact hmax j (by omega)

theorem le_argmax {j : Nat} (hj : j < current.length)
    : current.getD j 0 ≤ current.getD (argmax current) 0 :=
  (argmax_range current (current.length - 1)).2.1 j (by omega)

theorem lt_argmax {j : Nat} (hj : j < argmax current)
    : current.getD j 0 < current.getD (argmax current) 0 :=
  (argmax_range current (current.length - 1)).2.2 j hj

end argmax

section next

variable {weights : List Nat} {current : List Int}

theorem length_addWeights (hlen : current.length = weights.length)
    : (addWeights current weights).length = weights.length := by
  unfold addWeights
  rw [List.length_zipWith, hlen, Nat.min_self]

theorem getD_addWeights (hlen : current.length = weights.length) {j : Nat} (hj : j < weights.length)
    : (addWeights current weights).getD j 0 = current.getD j 0 + (weights.getD j 0 : Nat) := by
  unfold addWeights
  rw [List.getD_eq_getElem _ _ (by simpa [hlen] using hj), List.getD_eq_getElem _ _ (by omega),
    List.getD_eq_getElem _ _ hj, List.getElem_zipWith]

theorem length_swrrNext (hlen : current.length = weights.length)
    : (swrrNext weights current).2.length = weights.length := by
  unfold swrrNext
  rw [List.length_modify, length_addWeights hlen]

theorem le_swrrNext (hlen : current.length = weights.length) {j : Nat} (hj : j < weights.length)
    : current.getD j 0 + (weights.getD j 0 : Nat)
        ≤ current.getD (swrrNext weights current).1 0
          + (weights.getD (swrrNext weights current).1 0 : Nat) := by
  have hbest := swrrNext_lt hlen (List.ne_nil_of_length_pos (Nat.zero_lt_of_lt hj))
  have hle := le_argmax (addWeights current weights) (by rw [length_addWeights hlen]; exact hj)
  unfold swrrNext at hbest ⊢
  rw [getD_addWeights hlen hj, getD_addWeights hlen hbest] at hle
  exact hle

theorem lt_swrrNext (hlen : current.length = weights.length) (hne : weights ≠ []) {j : Nat}
    (hj : j < (swrrNext weights current).1)
    : current.getD j 0 + (weights.getD j 0 : Nat)
        < current.getD (swrrNext weights current).1 0
          + (weights.getD (swrrNext weights current).1 0 : Nat) := by
  have hbest := swrrNext_lt hlen hne
  have hlt := lt_argmax (addWeights current weights) hj
  unfold swrrNext at hbest hj ⊢
  rw [getD_addWeights hlen (Nat.lt_trans hj hbest), getD_addWeights hlen hbest] at hlt
  exact hlt

theorem getD_swrrNext (hlen : current.length = weights.length) {j : Nat} (hj : j < weights.length)
    : (swrrNext weights current).2.getD j 0
        =
      current.getD j 0 + (weights.getD j 0 : Nat)
        - if j = (swrrNext weights current).1 then (weights.sum : Int) else 0 := by
  have hadd : j < (addWeights current weights).length := by
    rw [length_addWeights hlen]
    exact hj
  have hget := getD_addWeights hlen hj
  rw [List.getD_eq_getElem _ _ hadd] at hget
  unfold swrrNext
  dsimp only
  rw [List.getD_eq_getElem _ _ (by simpa using hadd), List.getElem_modify, hget]
  by_cases heq : argmax (addWeights current weights) = j
  . rw [if_pos heq, if_pos heq.symm]
  . rw [if_neg heq, if_neg (fun h => heq h.symm), Int.sub_zero]

theorem sum_range_getD {M : Type} [AddCommMonoid M] (l : List M)
    : ∑ i ∈ Finset.range l.length, l.getD i 0 = l.sum := by
  induction l with
  | nil => rfl
  | cons x l ih =>
    rw [List.length_cons, Finset.sum_range_succ', List.sum_cons]
    simp only [List.getD_cons_succ, List.getD_cons_zero]
    rw [ih, add_comm]

theorem sum_getD (weights : List Nat)
    : ∑ i ∈ Finset.range weights.length, ((weights.getD i 0 : Nat) : Int) = weights.sum := by
  rw [← sum_range_getD weights]
  push_cast
  rfl

theorem turn_swrrNext (hlen : current.length = weights.length) (hne : weights ≠ [])
    : Rotation.Turn (fun i => ((weights.getD i 0 : Nat) : Int)) (Finset.range weights.length)
        (fun i => current.getD i 0) (swrrNext weights current).1
        (fun i => (swrrNext weights current).2.getD i 0) where
  mem := Finset.mem_range.mpr (swrrNext_lt hlen hne)
  best := by
    intro i hi
    exact le_swrrNext hlen (Finset.mem_range.mp hi)
  balance := by
    intro i
    rw [sum_getD]
    by_cases hi : i < weights.length
    . rw [getD_swrrNext hlen hi, if_pos (Finset.mem_range.mpr hi)]
    . have hbest := swrrNext_lt hlen hne
      have hnext := length_swrrNext hlen
      rw [if_neg (by simpa using hi), if_neg (by omega), List.getD_eq_default _ _ (by omega),
        List.getD_eq_default _ _ (by omega)]
      simp

end next

section run

variable (weights : List Nat) {current : List Int}

theorem swrrRun_succ (picks : Nat) (current : List Int)
    : swrrRun weights (picks + 1) current
        =
      ((swrrRun weights picks current).1 ++ [(swrrNext weights (swrrRun weights picks current).2).1],
        (swrrNext weights (swrrRun weights picks current).2).2) := by
  rfl

theorem length_swrrRun (picks : Nat) (hlen : current.length = weights.length)
    : (swrrRun weights picks current).1.length = picks
      ∧ (swrrRun weights picks current).2.length = weights.length := by
  induction picks with
  | zero => exact ⟨rfl, hlen⟩
  | succ picks ih =>
    rw [swrrRun_succ]
    refine ⟨?_, length_swrrNext ih.2⟩
    rw [List.length_append, ih.1, List.length_singleton]

theorem swrrRun_add (current : List Int) (picks more : Nat)
    : swrrRun weights (picks + more) current
        =
      ((swrrRun weights picks current).1
          ++ (swrrRun weights more (swrrRun weights picks current).2).1,
        (swrrRun weights more (swrrRun weights picks current).2).2) := by
  induction more with
  | zero => simp [swrrRun]
  | succ more ih =>
    rw [← Nat.add_assoc, swrrRun_succ, swrrRun_succ, ih, List.append_assoc]

variable {weights}

theorem rounds_swrrRun (picks : Nat) (hlen : current.length = weights.length) (hne : weights ≠ [])
    : Rotation.Rounds (fun i => ((weights.getD i 0 : Nat) : Int)) (Finset.range weights.length)
        (fun i => current.getD i 0) (swrrRun weights picks current).1
        (fun i => (swrrRun weights picks current).2.getD i 0) := by
  induction picks with
  | zero => exact .nil
  | succ picks ih =>
    rw [swrrRun_succ]
    exact ih.concat (turn_swrrNext (length_swrrRun weights picks hlen).2 hne)

theorem swrrRun_mul {period : Nat} (hperiod : (swrrRun weights period current).2 = current) (rounds : Nat)
    : (swrrRun weights (rounds * period) current).2 = current := by
  induction rounds with
  | zero =>
    rw [Nat.zero_mul]
    rfl
  | succ rounds ih => rw [Nat.add_mul, Nat.one_mul, swrrRun_add, ih, hperiod]

theorem getD_zeros (n i : Nat) : (List.replicate n (0 : Int)).getD i 0 = 0 := by
  rw [List.getD_eq_getElem?_getD, List.getElem?_replicate]
  split <;> rfl

theorem swrrRun_round (weights : List Nat)
    : (swrrRun weights weights.sum (List.replicate weights.length 0)).2
        =
      List.replicate weights.length 0 := by
  by_cases hpos : weights.sum = 0
  . rw [hpos]
    rfl
  . have hne : weights ≠ [] := by
      rintro rfl
      exact hpos rfl
    have hlen : (List.replicate weights.length (0 : Int)).length = weights.length := by simp
    have hrounds := rounds_swrrRun weights.sum hlen hne
    have hafter := length_swrrRun weights weights.sum hlen
    have hwhole := hrounds.whole (fun i _ => Int.natCast_nonneg _) (by rw [sum_getD]; omega)
      (fun i _ => getD_zeros weights.length i) (by rw [sum_getD, hafter.1])
    apply List.ext_getElem (by rw [hafter.2, hlen])
    intro i hi hi'
    have hzero := (hwhole i (Finset.mem_range.mpr (by omega))).2
    rw [List.getD_eq_getElem _ _ hi] at hzero
    rw [hzero, List.getElem_replicate]

end run

section word

variable {weights : List Nat} {current : List Int}

theorem signed_eq {x : Int} (h : |x| < 2 ^ 63) : Word.signed 64 x = some x := by
  rw [abs_lt] at h
  unfold Word.signed
  rw [if_pos ⟨by omega, by omega⟩]

theorem addWeights64_eq {room : Int} (hroom : room ≤ 2 ^ 63) (hlen : current.length = weights.length)
    (hbound : ∀ eff ∈ current, |eff| + weights.sum < room) {total : Int} (htotal : 0 ≤ total)
    (hsum : total + weights.sum < room)
    : addWeights64 current weights total = some (addWeights current weights, total + weights.sum) := by
  induction weights generalizing current total with
  | nil =>
    rw [List.length_eq_zero_iff.mp hlen]
    simp [addWeights64, addWeights]
  | cons weight weights ih =>
    rcases current with - | ⟨eff, current⟩
    . cases hlen
    . simp only [List.sum_cons, Int.natCast_add] at hbound hsum ⊢
      have heff := hbound eff List.mem_cons_self
      have habs := abs_add_le eff weight
      rw [abs_of_nonneg (Int.natCast_nonneg weight)] at habs
      have hsigned := signed_eq (x := eff + weight) (by omega)
      have hsigned' := signed_eq (x := total + weight) (by rw [abs_of_nonneg (by omega)]; omega)
      have hlen' : current.length = weights.length := by simpa using hlen
      have hbound' : ∀ e ∈ current, |e| + weights.sum < room := by
        intro e he
        have := hbound e (List.mem_cons_of_mem _ he)
        omega
      have htotal' : 0 ≤ total + weight := by omega
      have hrest := ih hlen' hbound' htotal' (by omega)
      rw [addWeights64, hsigned, Option.bind_some, hsigned', Option.bind_some, hrest, Option.map_some,
        Int.add_assoc]
      rfl

theorem swrrNext64_eq (hlen : current.length = weights.length)
    (hbound : ∀ eff ∈ current, |eff| + weights.sum < 2 ^ 63) (hsum : (weights.sum : Int) < 2 ^ 63)
    : swrrNext64 weights current = some (swrrNext weights current) := by
  have hadd := addWeights64_eq (Int.le_refl _) hlen hbound (Int.le_refl 0) (by omega)
  unfold swrrNext64 swrrNext
  rw [hadd, Option.bind_some]
  dsimp only
  rw [Int.zero_add]
  have hpaid : |(addWeights current weights).getD (argmax (addWeights current weights)) 0
      - (weights.sum : Int)| < 2 ^ 63 := by
    by_cases hbest : argmax (addWeights current weights) < weights.length
    . rw [getD_addWeights hlen hbest]
      have hmem : current.getD (argmax (addWeights current weights)) 0 ∈ current := by
        rw [List.getD_eq_getElem _ _ (by omega)]
        apply List.getElem_mem
      have heff := hbound _ hmem
      have hweight : weights.getD (argmax (addWeights current weights)) 0 ≤ weights.sum := by
        rw [List.getD_eq_getElem _ _ hbest]
        exact List.le_sum_of_mem (List.getElem_mem hbest)
      generalize current.getD (argmax (addWeights current weights)) 0 = eff at heff ⊢
      have := abs_le.mp (le_refl |eff|)
      rw [abs_lt]
      omega
    . rw [List.getD_eq_default _ _ (by rw [length_addWeights hlen]; omega)]
      rw [abs_lt]
      omega
  rw [signed_eq hpaid, Option.map_some, List.modify_eq_set]
  rfl

theorem abs_swrrRun_le (weights : List Nat) (picks : Nat)
    : ∀ eff ∈ (swrrRun weights picks (List.replicate weights.length 0)).2,
        |eff| + weights.sum ≤ weights.length * weights.sum := by
  by_cases hne : weights = []
  . subst hne
    intro eff heff
    have hnil : ([] : List Int).length = ([] : List Nat).length := rfl
    have hlen := (length_swrrRun [] picks hnil).2
    rw [List.length_nil, List.replicate_zero, List.eq_nil_of_length_eq_zero hlen] at heff
    cases heff
  . have hlen : (List.replicate weights.length (0 : Int)).length = weights.length := by simp
    have hzero : Rotation.Spread (fun i => ((weights.getD i 0 : Nat) : Int)) (Finset.range weights.length)
        fun i => (List.replicate weights.length (0 : Int)).getD i 0 := by
      simp only [getD_zeros]
      exact Rotation.spread_zero fun i _ => Int.natCast_nonneg _
    have hspread := (rounds_swrrRun picks hlen hne).spread (fun i _ => Int.natCast_nonneg _) hzero
    have hafter := (length_swrrRun weights picks hlen).2
    intro eff heff
    rcases List.mem_iff_getElem.mp heff with ⟨i, hi, rfl⟩
    have hbound := hspread.bounded (Finset.mem_range.mpr (hafter ▸ hi))
    rw [List.getD_eq_getElem _ _ hi, Finset.card_range, sum_getD] at hbound
    linarith

theorem swrrRun64_eq (hsmall : weights.length * weights.sum < 2 ^ 62) (picks : Nat)
    : swrrRun64 weights picks (List.replicate weights.length 0)
        =
      some (swrrRun weights picks (List.replicate weights.length 0)) := by
  have hsum : weights.sum ≤ weights.length * weights.sum := by
    rcases weights with - | ⟨weight, weights⟩
    . simp
    . exact Nat.le_mul_of_pos_left _ (by simp)
  induction picks with
  | zero => rfl
  | succ picks ih =>
    have hbound := abs_swrrRun_le weights picks
    have hstart : (List.replicate weights.length (0 : Int)).length = weights.length := by simp
    have hlen := (length_swrrRun weights picks hstart).2
    have hcast : (weights.length : Int) * weights.sum < 2 ^ 62 := by exact_mod_cast hsmall
    rw [swrrRun64, ih, Option.bind_some, swrrRun_succ, swrrNext64_eq hlen]
    . rfl
    . intro eff heff
      have := hbound eff heff
      omega
    . omega

end word

theorem swrr_exact (weights : List Nat)
    : (∀ start i, i < weights.length →
        ((swrrRun weights (start + weights.sum) (List.replicate weights.length 0)).1.drop start).count i
          = weights.getD i 0)
      ∧ (∀ rounds, (swrrRun weights (rounds * weights.sum) (List.replicate weights.length 0)).2
          = List.replicate weights.length 0)
      ∧ (weights.length * weights.sum < 2 ^ 62 →
        ∀ picks, swrrRun64 weights picks (List.replicate weights.length 0)
          = some (swrrRun weights picks (List.replicate weights.length 0))) := by
  have hround := swrrRun_round weights
  refine ⟨?_, swrrRun_mul hround, swrrRun64_eq⟩
  intro start i hi
  have hne : weights ≠ [] := by
    rintro rfl
    cases hi
  have hlen : (List.replicate weights.length (0 : Int)).length = weights.length := by simp
  generalize List.replicate weights.length (0 : Int) = zeros at hround hlen ⊢
  have hstart := length_swrrRun weights start hlen
  -- The window leads from the weights it starts with back to them, for so does the round before it.
  have hback : (swrrRun weights weights.sum (swrrRun weights start zeros).2).2
      = (swrrRun weights start zeros).2 := by
    have hfirst := swrrRun_add weights zeros start weights.sum
    rw [Nat.add_comm, swrrRun_add weights zeros weights.sum start, hround] at hfirst
    exact (Prod.mk.inj hfirst).2.symm
  have hrounds := rounds_swrrRun weights.sum hstart.2 hne
  have hlength := (length_swrrRun weights weights.sum hstart.2).1
  have hbalance := hrounds.balance (Finset.mem_range.mpr hi)
  rw [hback, hlength, sum_getD] at hbalance
  have hpos : 0 < weights.sum ∨ weights.sum = 0 := by omega
  rw [swrrRun_add, List.drop_append_of_le_length (by omega), List.drop_eq_nil_of_le (by omega),
    List.nil_append]
  rcases hpos with hpos | hzero
  . have hcount : (weights.sum : Int)
        * ((swrrRun weights weights.sum (swrrRun weights start zeros).2).1.count i : Int)
          = weights.sum * (weights.getD i 0 : Nat) := by linarith
    have hne' : (weights.sum : Int) ≠ 0 := by omega
    exact_mod_cast Int.eq_of_mul_eq_mul_left hne' hcount
  . have hweight : weights.getD i 0 ≤ weights.sum := by
      rw [List.getD_eq_getElem _ _ hi]
      exact List.le_sum_of_mem (List.getElem_mem hi)
    rw [hzero] at hweight ⊢
    simp only [swrrRun, List.count_nil]
    omega

end OpenRusty
