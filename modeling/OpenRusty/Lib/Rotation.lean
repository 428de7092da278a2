import Mathlib.Algebra.BigOperators.Ring.Finset
import Mathlib.Algebra.Order.BigOperators.Group.Finset
import Mathlib.Tactic.LinearCombination
import Mathlib.Tactic.Linarith
import Mathlib.Tactic.Ring

/-!
This module contains the theory of smooth weighted rotation. Everybody who takes part in a turn is credited
with a weight, one with the largest balance is chosen and pays for all who took part. Whoever takes part in
which turn, the balances stay spread: no set of members is further ahead than a parabola in its size.
If everybody takes part in every turn, nobody is behind by a whole round.
-/

namespace Rotation

variable {ι : Type} [DecidableEq ι]

structure Turn (w : ι → ℤ) (S : Finset ι) (c : ι → ℤ) (k : ι) (c' : ι → ℤ) : Prop where
  mem : k ∈ S
  best : ∀ i ∈ S, c i + w i ≤ c k + w k
  balance : ∀ i, c' i = c i + (if i ∈ S then w i else 0) - if i = k then ∑ j ∈ S, w j else 0

variable {w c c' : ι → ℤ} {S U : Finset ι} {k : ι}

theorem Turn.sum_eq (h : Turn w S c k c') (T : Finset ι)
    : ∑ i ∈ T, c' i = ∑ i ∈ T, c i + ∑ i ∈ T ∩ S, w i - if k ∈ T then ∑ i ∈ S, w i else 0 := by
  rw [Finset.sum_congr rfl fun i _ => h.balance i, Finset.sum_sub_distrib, Finset.sum_add_distrib,
    Finset.sum_ite_mem, Finset.sum_ite_eq']

theorem Turn.sum_all (h : Turn w S c k c') (hS : S ⊆ U) : ∑ i ∈ U, c' i = ∑ i ∈ U, c i := by
  rw [h.sum_eq U, if_pos (hS h.mem), Finset.inter_eq_right.mpr hS]
  ring

def allowance (w : ι → ℤ) (U : Finset ι) (t : ℤ) : ℤ := t * (U.card - t) * ∑ i ∈ U, w i

structure Spread (w : ι → ℤ) (U : Finset ι) (c : ι → ℤ) : Prop where
  sum_eq : ∑ i ∈ U, c i = 0
  le : ∀ T ⊆ U, ∑ i ∈ T, c i ≤ allowance w U T.card

omit [DecidableEq ι] in
theorem spread_zero (hw : ∀ i ∈ U, 0 ≤ w i) : Spread w U fun _ => 0 where
  sum_eq := by simp
  le := by
    intro T hT
    have hcard : (T.card : ℤ) ≤ U.card := by exact_mod_cast Finset.card_le_card hT
    have hsum := Finset.sum_nonneg hw
    unfold allowance
    rw [Finset.sum_const_zero]
    apply mul_nonneg _ hsum
    apply mul_nonneg
    . omega
    . omega

omit [DecidableEq ι] in
theorem allowance_add (w : ι → ℤ) (U : Finset ι) (t : ℤ)
    : allowance w U (t + 1) + allowance w U (t - 1) + 2 * ∑ i ∈ U, w i = 2 * allowance w U t := by
  unfold allowance
  ring

theorem Turn.spread (h : Turn w S c k c') (hS : S ⊆ U) (hw : ∀ i ∈ U, 0 ≤ w i) (hc : Spread w U c)
    : Spread w U c' where
  sum_eq := by rw [h.sum_all hS, hc.sum_eq]
  le := by
    intro T hT
    rw [h.sum_eq T]
    have hwS : ∀ i ∈ S, 0 ≤ w i := fun i hi => hw i (hS hi)
    by_cases hk : k ∈ T
    . have hpart : ∑ i ∈ T ∩ S, w i ≤ ∑ i ∈ S, w i := by
        apply Finset.sum_le_sum_of_subset_of_nonneg Finset.inter_subset_right
        intro i hi _
        exact hwS i hi
      have := hc.le T hT
      rw [if_pos hk]
      linarith
    . rw [if_neg hk, sub_zero]
      rcases (T ∩ S).eq_empty_or_nonempty with hempty | ⟨i, hi⟩
      . rw [hempty, Finset.sum_empty, add_zero]
        exact hc.le T hT
      . -- The set with the chosen one and the set without `i` are one larger and one smaller.
        rcases Finset.mem_inter.mp hi with ⟨hiT, hiS⟩
        have hmore : ∑ j ∈ T, c j + c k ≤ allowance w U (T.card + 1) := by
          have := hc.le (insert k T) (Finset.insert_subset (hS h.mem) hT)
          rw [Finset.sum_insert hk, Finset.card_insert_of_notMem hk] at this
          push_cast at this
          linarith
        have hless : ∑ j ∈ T, c j - c i ≤ allowance w U (T.card - 1) := by
          have hsum := Finset.sum_erase_add T c hiT
          have := hc.le (T.erase i) ((Finset.erase_subset i T).trans hT)
          rw [Finset.card_erase_of_mem hiT,
            Nat.cast_sub (Finset.card_pos.mpr ⟨i, hiT⟩)] at this
          push_cast at this
          linarith
        have hchosen : ∑ j ∈ T ∩ S, w j + w k ≤ ∑ j ∈ U, w j := by
          have hknot : k ∉ T ∩ S := fun hmem => hk (Finset.mem_inter.mp hmem).1
          rw [add_comm, ← Finset.sum_insert hknot]
          apply Finset.sum_le_sum_of_subset_of_nonneg
          . exact Finset.insert_subset (hS h.mem) (Finset.inter_subset_right.trans hS)
          . intro j hj _
            exact hw j hj
        have hothers : ∑ j ∈ T ∩ S, w j - w i ≤ ∑ j ∈ U, w j := by
          have := Finset.sum_erase_add (T ∩ S) w hi
          have : ∑ j ∈ (T ∩ S).erase i, w j ≤ ∑ j ∈ U, w j := by
            apply Finset.sum_le_sum_of_subset_of_nonneg
            . exact (Finset.erase_subset _ _).trans (Finset.inter_subset_right.trans hS)
            . intro j hj _
              exact hw j hj
          linarith
        have := h.best i hiS
        have := allowance_add w U T.card
        linarith

omit [DecidableEq ι] in
theorem Spread.le_one (h : Spread w U c) {i : ι} (hi : i ∈ U)
    : c i ≤ (U.card - 1) * ∑ j ∈ U, w j := by
  have := h.le {i} (Finset.singleton_subset_iff.mpr hi)
  unfold allowance at this
  rw [Finset.sum_singleton, Finset.card_singleton] at this
  push_cast at this
  linarith

theorem Spread.neg_le_one (h : Spread w U c) {i : ι} (hi : i ∈ U)
    : -c i ≤ (U.card - 1) * ∑ j ∈ U, w j := by
  have hsum := Finset.sum_erase_add U c hi
  rw [h.sum_eq] at hsum
  have := h.le (U.erase i) (Finset.erase_subset i U)
  unfold allowance at this
  rw [Finset.card_erase_of_mem hi, Nat.cast_sub (Finset.card_pos.mpr ⟨i, hi⟩)] at this
  push_cast at this
  linarith

theorem Spread.bounded (h : Spread w U c) {i : ι} (hi : i ∈ U)
    : |c i| ≤ (U.card - 1) * ∑ j ∈ U, w j := by
  rw [abs_le]
  exact ⟨by linarith [h.neg_le_one hi], h.le_one hi⟩

/-!
Turns in which everybody takes part.
-/

inductive Rounds (w : ι → ℤ) (U : Finset ι) (c : ι → ℤ) : List ι → (ι → ℤ) → Prop where
  | nil : Rounds w U c [] c
  | concat {ks : List ι} {c' c'' : ι → ℤ} {k : ι} (h : Rounds w U c ks c') (ht : Turn w U c' k c'')
    : Rounds w U c (ks ++ [k]) c''

variable {ks : List ι}

theorem Rounds.balance (h : Rounds w U c ks c') {i : ι} (hi : i ∈ U)
    : c' i = c i + ks.length * w i - ks.count i * ∑ j ∈ U, w j := by
  induction h with
  | nil => simp
  | @concat ks c' c'' k h ht ih =>
    rw [ht.balance i, ih, if_pos hi, List.length_append, List.count_append, List.count_singleton]
    by_cases hk : i = k
    . subst hk
      rw [if_pos rfl, if_pos (by simp)]
      push_cast
      simp only [List.length_singleton, Nat.cast_one]
      ring
    . rw [if_neg hk, if_neg (by simpa using fun heq => hk heq.symm)]
      push_cast
      simp only [List.length_singleton, Nat.cast_one]
      ring

theorem Rounds.spread (h : Rounds w U c ks c') (hw : ∀ i ∈ U, 0 ≤ w i) (hc : Spread w U c)
    : Spread w U c' := by
  induction h with
  | nil => exact hc
  | concat h ht ih => exact ht.spread (Finset.Subset.refl U) hw ih

theorem Rounds.mem (h : Rounds w U c ks c') : ∀ k ∈ ks, k ∈ U := by
  induction h with
  | nil => nofun
  | concat h ht ih =>
    intro j hj
    rcases List.mem_append.mp hj with hj | hj
    . exact ih j hj
    . rw [List.mem_singleton.mp hj]
      exact ht.mem

theorem Turn.ahead (h : Turn w U c k c') (hw : ∀ i ∈ U, 0 ≤ w i) (hpos : 0 < ∑ i ∈ U, w i)
    (hsum : ∑ i ∈ U, c i = 0) (hc : ∀ i ∈ U, -∑ j ∈ U, w j < c i)
    : ∀ i ∈ U, -∑ j ∈ U, w j < c' i := by
  intro i hi
  rw [h.balance i, if_pos hi]
  by_cases hk : i = k
  . subst hk
    have hspend : 0 < c i + w i := by
      by_contra hle
      have : ∑ j ∈ U, (c j + w j) ≤ 0 := by
        apply Finset.sum_nonpos
        intro j hj
        have := h.best j hj
        linarith
      rw [Finset.sum_add_distrib, hsum] at this
      linarith
    rw [if_pos rfl]
    linarith
  . have := hc i hi
    have := hw i hi
    rw [if_neg hk]
    linarith

theorem Rounds.ahead (h : Rounds w U c ks c') (hw : ∀ i ∈ U, 0 ≤ w i) (hpos : 0 < ∑ i ∈ U, w i)
    (hzero : ∀ i ∈ U, c i = 0)
    : ∑ i ∈ U, c' i = 0 ∧ ∀ i ∈ U, -∑ j ∈ U, w j < c' i := by
  induction h with
  | nil =>
    refine ⟨Finset.sum_eq_zero hzero, ?_⟩
    intro i hi
    rw [hzero i hi]
    linarith
  | concat h ht ih =>
    rw [ht.sum_all (Finset.Subset.refl U)]
    exact ⟨ih.1, ht.ahead hw hpos ih.1 ih.2⟩

theorem Rounds.whole (h : Rounds w U c ks c') (hw : ∀ i ∈ U, 0 ≤ w i) (hpos : 0 < ∑ i ∈ U, w i)
    (hzero : ∀ i ∈ U, c i = 0) (hlength : (ks.length : ℤ) = ∑ i ∈ U, w i)
    : ∀ i ∈ U, (ks.count i : ℤ) = w i ∧ c' i = 0 := by
  have hle : ∀ i ∈ U, (ks.count i : ℤ) ≤ w i := by
    intro i hi
    have hahead := (h.ahead hw hpos hzero).2 i hi
    rw [h.balance hi, hzero i hi, hlength] at hahead
    have : (∑ j ∈ U, w j) * (ks.count i : ℤ) < (∑ j ∈ U, w j) * (w i + 1) := by linarith
    have := lt_of_mul_lt_mul_left this hpos.le
    omega
  have hcount : ∑ i ∈ U, (ks.count i : ℤ) = ∑ i ∈ U, w i := by
    have hall := Multiset.sum_count_eq_card (m := (ks : Multiset ι)) h.mem
    simp only [Multiset.coe_count, Multiset.coe_card] at hall
    rw [← hlength]
    exact_mod_cast hall
  intro i hi
  have heq := (Finset.sum_eq_sum_iff_of_le hle).mp hcount i hi
  refine ⟨heq, ?_⟩
  rw [h.balance hi, hzero i hi, hlength, heq]
  ring

end Rotation
