import OpenRusty.Lib.Machine
import OpenRusty.Proxy.Swrr
import OpenRusty.Server.Pipeline.Basic

/-!
This module contains the round robin over changing sets of healthy peers (`swrr_pick`). A pick is a turn
of the rotation in which the healthy peers take part, so the effective weights of all peers stay within a
bound that no sequence of health changes can wear down, and signed machine words are wide enough for them.
-/

namespace OpenRusty

def Upstream.weightAt (up : Upstream) (i : Nat) : Nat := up.peers[i]?.elim 0 Peer.weight

def Upstream.totalWeight (up : Upstream) : Nat := (up.peers.map Peer.weight).sum

def swrrPick64 (up : Upstream) (cur : List Int) (healthy : List Nat) : Option (Nat × List Int) :=
  if healthy.isEmpty then
    none
  else
    let cur := cur.take up.peers.length ++ List.replicate (up.peers.length - cur.length) 0
    (swrrNext64 (healthy.map up.weightAt) (healthy.map fun i => cur.getD i 0)).bind fun x =>
      let cur := (healthy.zip x.2).foldl (fun cur x => cur.set x.1 x.2) cur
      healthy[x.1]?.map fun i => (i, cur)

/-!
One more pick: the peers that were chosen so far and the effective weights.
-/

def swrrStep (up : Upstream) (s : List Nat × List Int) (healthy : List Nat)
    : Option (List Nat × List Int) :=
  (swrrPick up s.2 healthy).map fun x => (s.1 ++ [x.1], x.2)

def swrrStep64 (up : Upstream) (s : List Nat × List Int) (healthy : List Nat)
    : Option (List Nat × List Int) :=
  (swrrPick64 up s.2 healthy).map fun x => (s.1 ++ [x.1], x.2)

structure Candidates (up : Upstream) (healthy : List Nat) : Prop where
  ne_nil : healthy ≠ []
  nodup : healthy.Nodup
  lt_length : ∀ i ∈ healthy, i < up.peers.length

instance (up : Upstream) (healthy : List Nat) : Decidable (Candidates up healthy) :=
  decidable_of_iff (healthy ≠ [] ∧ healthy.Nodup ∧ ∀ i ∈ healthy, i < up.peers.length)
    ⟨fun h => ⟨h.1, h.2.1, h.2.2⟩, fun h => ⟨h.ne_nil, h.nodup, h.lt_length⟩⟩

section write

variable {is : List Nat} {xs cur : List Int}

theorem length_foldl_set (is : List Nat) (xs cur : List Int)
    : ((is.zip xs).foldl (fun cur x => cur.set x.1 x.2) cur).length = cur.length := by
  induction is generalizing xs cur with
  | nil => simp
  | cons i is ih =>
    cases xs with
    | nil => simp
    | cons x xs =>
      rw [List.zip_cons_cons, List.foldl_cons, ih, List.length_set]

theorem getD_foldl_set_of_not_mem {i : Nat} (hi : i ∉ is)
    : ((is.zip xs).foldl (fun cur x => cur.set x.1 x.2) cur).getD i 0 = cur.getD i 0 := by
  induction is generalizing xs cur with
  | nil => simp
  | cons j is ih =>
    cases xs with
    | nil => simp
    | cons x xs =>
      rw [List.mem_cons, not_or] at hi
      rw [List.zip_cons_cons, List.foldl_cons, ih hi.2, List.getD_eq_getElem?_getD,
        List.getD_eq_getElem?_getD, List.getElem?_set_ne (fun h => hi.1 h.symm)]

theorem getD_foldl_set (hnodup : is.Nodup) (hlt : ∀ i ∈ is, i < cur.length) (hlen : xs.length = is.length)
    {j : Nat} (hj : j < is.length)
    : ((is.zip xs).foldl (fun cur x => cur.set x.1 x.2) cur).getD is[j] 0 = xs.getD j 0 := by
  induction is generalizing xs cur j with
  | nil => cases hj
  | cons i is ih =>
    rcases xs with - | ⟨x, xs⟩
    . cases hlen
    . rcases List.nodup_cons.mp hnodup with ⟨hi, hnodup⟩
      rw [List.zip_cons_cons, List.foldl_cons]
      cases j with
      | zero =>
        have hlt := hlt i List.mem_cons_self
        rw [List.getElem_cons_zero, getD_foldl_set_of_not_mem hi, List.getD_cons_zero,
          List.getD_eq_getElem _ _ (by simpa using hlt), List.getElem_set_self]
      | succ j =>
        rw [List.getElem_cons_succ, List.getD_cons_succ]
        apply ih hnodup
        . intro k hk
          rw [List.length_set]
          exact hlt k (List.mem_cons_of_mem _ hk)
        . simpa using hlen

end write

section pick

variable {up : Upstream} {cur cur' : List Int} {healthy : List Nat} {i : Nat}

theorem sum_weightAt (up : Upstream)
    : ∑ i ∈ Finset.range up.peers.length, (up.weightAt i : Int) = up.totalWeight := by
  have hsum := sum_getD (up.peers.map Peer.weight)
  rw [List.length_map] at hsum
  unfold Upstream.totalWeight
  rw [← hsum]
  apply Finset.sum_congr rfl
  intro i _
  unfold Upstream.weightAt
  rw [List.getD_eq_getElem?_getD, List.getElem?_map]
  cases up.peers[i]? <;> rfl

theorem Candidates.subset (h : Candidates up healthy)
    : healthy.toFinset ⊆ Finset.range up.peers.length := by
  intro i hi
  exact Finset.mem_range.mpr (h.lt_length i (List.mem_toFinset.mp hi))

theorem Candidates.sum_eq (h : Candidates up healthy)
    : ∑ i ∈ healthy.toFinset, (up.weightAt i : Int) = (healthy.map up.weightAt).sum := by
  rw [List.sum_toFinset _ h.nodup, Nat.cast_list_sum, List.map_map]
  rfl

theorem Candidates.sum_le (h : Candidates up healthy)
    : (healthy.map up.weightAt).sum ≤ up.totalWeight := by
  have hle : ∑ i ∈ healthy.toFinset, (up.weightAt i : Int)
      ≤ ∑ i ∈ Finset.range up.peers.length, (up.weightAt i : Int) := by
    apply Finset.sum_le_sum_of_subset_of_nonneg h.subset
    intro i _ _
    exact Int.natCast_nonneg _
  rw [h.sum_eq, sum_weightAt] at hle
  exact_mod_cast hle

theorem resize_eq (hlen : cur.length = up.peers.length)
    : cur.take up.peers.length ++ List.replicate (up.peers.length - cur.length) 0 = cur := by
  rw [hlen, Nat.sub_self, List.replicate_zero, List.append_nil, List.take_of_length_le (by omega)]

theorem swrrPick_eq (hlen : cur.length = up.peers.length) (h : Candidates up healthy)
    : let next := swrrNext (healthy.map up.weightAt) (healthy.map fun i => cur.getD i 0)
      ∃ hk : next.1 < healthy.length,
        swrrPick up cur healthy
          = some (healthy[next.1], (healthy.zip next.2).foldl (fun cur x => cur.set x.1 x.2) cur) := by
  intro next
  have hk : next.1 < (healthy.map up.weightAt).length := by
    apply swrrNext_lt
    . simp
    . simpa using h.ne_nil
  rw [List.length_map] at hk
  refine ⟨hk, ?_⟩
  have hempty : healthy.isEmpty = false := by simpa using h.ne_nil
  unfold swrrPick
  rw [hempty, if_neg Bool.false_ne_true, resize_eq hlen]
  have hnext : swrrNext (healthy.map fun i => up.peers[i]?.elim 0 Peer.weight)
      (healthy.map fun i => cur.getD i 0) = next := rfl
  dsimp only
  rw [hnext, List.getElem?_eq_getElem hk]
  rfl

theorem swrrPick_best (up : Upstream) (cur : List Int) (h : Candidates up healthy)
    (hsorted : healthy.Pairwise (· < ·))
    : ∃ i cur', swrrPick up cur healthy = some (i, cur') ∧ i ∈ healthy
      ∧ (∀ j ∈ healthy, cur.getD j 0 + up.weightAt j ≤ cur.getD i 0 + up.weightAt i)
      ∧ ∀ j ∈ healthy, j < i → cur.getD j 0 + up.weightAt j < cur.getD i 0 + up.weightAt i := by
  generalize hresized : cur.take up.peers.length ++ List.replicate (up.peers.length - cur.length) 0 = resized
  have hlen : resized.length = up.peers.length := by
    rw [← hresized, List.length_append, List.length_take, List.length_replicate]
    omega
  -- Weights that the resize adds are zero, as `getD` reads them before it.
  have hat : ∀ j ∈ healthy, resized.getD j 0 = cur.getD j 0 := by
    intro j hj
    have hlt := h.lt_length j hj
    rw [← hresized, List.getD_eq_getElem?_getD, List.getD_eq_getElem?_getD, List.getElem?_append]
    by_cases hin : j < cur.length
    . rw [if_pos (by rw [List.length_take]; omega), List.getElem?_take_of_lt hlt]
    . rw [if_neg (by rw [List.length_take]; omega), List.getElem?_replicate,
        if_pos (by rw [List.length_take]; omega), List.getElem?_eq_none (by omega)]
      rfl
  have hsame : swrrPick up cur healthy = swrrPick up resized healthy := by
    unfold swrrPick
    rw [hresized, resize_eq hlen]
  rcases swrrPick_eq hlen h with ⟨hk, heq⟩
  have hlength : (healthy.map fun i => resized.getD i 0).length = (healthy.map up.weightAt).length := by simp
  have hget {j : Nat} (hj : j < healthy.length)
      : (healthy.map fun i => resized.getD i 0).getD j 0 = cur.getD healthy[j] 0
        ∧ (healthy.map up.weightAt).getD j 0 = up.weightAt healthy[j] := by
    constructor
    . rw [List.getD_eq_getElem _ _ (by simpa using hj), List.getElem_map, hat _ (List.getElem_mem hj)]
    . rw [List.getD_eq_getElem _ _ (by simpa using hj), List.getElem_map]
  refine ⟨_, _, hsame.trans heq, List.getElem_mem hk, ?_, ?_⟩
  . intro i hi
    rcases List.mem_iff_getElem.mp hi with ⟨j, hj, rfl⟩
    have hle := le_swrrNext hlength (j := j) (by simpa using hj)
    rw [(hget hj).1, (hget hj).2, (hget hk).1, (hget hk).2] at hle
    exact hle
  . intro i hi hlt
    rcases List.mem_iff_getElem.mp hi with ⟨j, hj, rfl⟩
    have hjk : j < (swrrNext (healthy.map up.weightAt) (healthy.map fun i => resized.getD i 0)).1 := by
      by_contra hge
      rcases Nat.eq_or_lt_of_le (Nat.not_lt.mp hge) with heq | hgt
      . simp only [heq] at hlt
        omega
      . have := List.pairwise_iff_getElem.mp hsorted _ _ hk hj hgt
        omega
    have hlt := lt_swrrNext hlength (by simpa using h.ne_nil) hjk
    rw [(hget hj).1, (hget hj).2, (hget hk).1, (hget hk).2] at hlt
    exact hlt

theorem turn_swrrPick (hlen : cur.length = up.peers.length) (h : Candidates up healthy)
    (hpick : swrrPick up cur healthy = some (i, cur'))
    : cur'.length = up.peers.length
      ∧ Rotation.Turn (fun i => (up.weightAt i : Int)) healthy.toFinset (fun i => cur.getD i 0) i
          (fun i => cur'.getD i 0) := by
  rcases swrrPick_eq hlen h with ⟨hk, heq⟩
  rw [heq] at hpick
  cases hpick
  have hlength : (healthy.map fun i => cur.getD i 0).length = (healthy.map up.weightAt).length := by simp
  have hnext := length_swrrNext hlength
  rw [List.length_map] at hnext
  have hat {j : Nat} (hj : j < healthy.length)
      : (healthy.map fun i => cur.getD i 0).getD j 0 = cur.getD healthy[j] 0
        ∧ (healthy.map up.weightAt).getD j 0 = up.weightAt healthy[j] := by
    constructor
    . rw [List.getD_eq_getElem _ _ (by simpa using hj), List.getElem_map]
    . rw [List.getD_eq_getElem _ _ (by simpa using hj), List.getElem_map]
  refine ⟨by rw [length_foldl_set, hlen], ?_, ?_, ?_⟩
  . exact List.mem_toFinset.mpr (List.getElem_mem hk)
  . intro i hi
    rcases List.mem_iff_getElem.mp (List.mem_toFinset.mp hi) with ⟨j, hj, rfl⟩
    have hle := le_swrrNext hlength (j := j) (by simpa using hj)
    rw [(hat hj).1, (hat hj).2, (hat hk).1, (hat hk).2] at hle
    exact hle
  . intro j
    by_cases hj : j ∈ healthy
    . rcases List.mem_iff_getElem.mp hj with ⟨j, hj', rfl⟩
      rw [getD_foldl_set h.nodup (fun i hi => hlen ▸ h.lt_length i hi) hnext hj',
        getD_swrrNext hlength (by simpa using hj'), (hat hj').1, (hat hj').2, h.sum_eq,
        if_pos (List.mem_toFinset.mpr hj)]
      congr 1
      simp only [h.nodup.getElem_inj_iff]
    . rw [getD_foldl_set_of_not_mem hj, if_neg (fun hmem => hj (List.mem_toFinset.mp hmem)), if_neg]
      . ring
      . rintro rfl
        exact hj (List.getElem_mem hk)

theorem swrrPick64_eq (hlen : cur.length = up.peers.length) (h : Candidates up healthy)
    (hbound : ∀ eff ∈ cur, |eff| + up.totalWeight < 2 ^ 63) (hsum : (up.totalWeight : Int) < 2 ^ 63)
    : swrrPick64 up cur healthy = swrrPick up cur healthy := by
  rcases swrrPick_eq hlen h with ⟨hk, heq⟩
  have hempty : healthy.isEmpty = false := by simpa using h.ne_nil
  have hle : ((healthy.map up.weightAt).sum : Int) ≤ up.totalWeight := by exact_mod_cast h.sum_le
  have hnext : swrrNext64 (healthy.map up.weightAt) (healthy.map fun i => cur.getD i 0)
      = some (swrrNext (healthy.map up.weightAt) (healthy.map fun i => cur.getD i 0)) := by
    apply swrrNext64_eq
    . simp
    . intro eff heff
      rcases List.mem_map.mp heff with ⟨i, hi, rfl⟩
      have hlt := h.lt_length i hi
      have hmem : cur.getD i 0 ∈ cur := by
        rw [List.getD_eq_getElem _ _ (by omega)]
        apply List.getElem_mem
      have := hbound _ hmem
      omega
    . omega
  unfold swrrPick64
  rw [hempty, if_neg Bool.false_ne_true, resize_eq hlen]
  dsimp only
  rw [hnext, heq, Option.bind_some, List.getElem?_eq_getElem hk]
  rfl

end pick

def Bounded (up : Upstream) (cur : List Int) : Prop :=
  cur.length = up.peers.length
    ∧ Rotation.Spread (fun i => (up.weightAt i : Int)) (Finset.range up.peers.length) fun i => cur.getD i 0

section run

variable {up : Upstream} {cur : List Int} {healthy : List Nat}

theorem bounded_zeros (up : Upstream) : Bounded up (List.replicate up.peers.length 0) := by
  refine ⟨by simp, ?_⟩
  simp only [getD_zeros]
  exact Rotation.spread_zero fun i _ => Int.natCast_nonneg _

theorem Bounded.sum_eq (h : Bounded up cur) : cur.sum = 0 := by
  rw [← sum_range_getD, h.1]
  exact h.2.sum_eq

theorem Bounded.abs_le (h : Bounded up cur)
    : ∀ eff ∈ cur, |eff| ≤ ((up.peers.length : Int) - 1) * up.totalWeight := by
  intro eff heff
  rcases List.mem_iff_getElem.mp heff with ⟨i, hi, rfl⟩
  have hbound := h.2.bounded (Finset.mem_range.mpr (h.1 ▸ hi))
  rw [List.getD_eq_getElem _ _ hi, Finset.card_range, sum_weightAt] at hbound
  exact hbound

theorem Bounded.step (h : Bounded up cur) (hcandidates : Candidates up healthy) (chosen : List Nat)
    : ∃ i cur', swrrStep up (chosen, cur) healthy = some (chosen ++ [i], cur') ∧ Bounded up cur'
      ∧ (up.peers.length * up.totalWeight < 2 ^ 62 →
        swrrStep64 up (chosen, cur) healthy = some (chosen ++ [i], cur')) := by
  rcases swrrPick_eq h.1 hcandidates with ⟨hk, heq⟩
  have hturn := turn_swrrPick h.1 hcandidates heq
  unfold swrrStep swrrStep64
  dsimp only
  refine ⟨_, _, by rw [heq]; rfl, ⟨hturn.1, ?_⟩, ?_⟩
  . exact hturn.2.spread hcandidates.subset (fun i _ => Int.natCast_nonneg _) h.2
  . intro hsmall
    have hpos : 1 ≤ up.peers.length := by
      rcases List.exists_mem_of_ne_nil healthy hcandidates.ne_nil with ⟨i, hi⟩
      have := hcandidates.lt_length i hi
      omega
    have hle : up.totalWeight ≤ up.peers.length * up.totalWeight := Nat.le_mul_of_pos_left _ hpos
    have hcast : (up.peers.length : Int) * up.totalWeight < 2 ^ 62 := by exact_mod_cast hsmall
    rw [swrrPick64_eq h.1 hcandidates, heq]
    . rfl
    . intro eff heff
      have := h.abs_le eff heff
      linarith
    . omega

theorem swrr_bounded (up : Upstream) (picks : List (List Nat)) (hpicks : ∀ healthy ∈ picks, Candidates up healthy)
    : ∃ chosen cur,
        Machine.run (swrrStep up) ([], List.replicate up.peers.length 0) picks = some (chosen, cur)
        ∧ cur.sum = 0 ∧ (∀ eff ∈ cur, |eff| ≤ ((up.peers.length : Int) - 1) * up.totalWeight)
        ∧ (up.peers.length * up.totalWeight < 2 ^ 62 →
          Machine.run (swrrStep64 up) ([], List.replicate up.peers.length 0) picks = some (chosen, cur)) := by
  have hrun : ∀ (picks : List (List Nat)) chosen cur, (∀ healthy ∈ picks, Candidates up healthy) →
      Bounded up cur →
      ∃ chosen' cur', Machine.run (swrrStep up) (chosen, cur) picks = some (chosen', cur')
        ∧ Bounded up cur'
        ∧ (up.peers.length * up.totalWeight < 2 ^ 62 →
          Machine.run (swrrStep64 up) (chosen, cur) picks = some (chosen', cur')) := by
    intro picks
    induction picks with
    | nil =>
      intro chosen cur _ hcur
      exact ⟨chosen, cur, rfl, hcur, fun _ => rfl⟩
    | cons healthy picks ih =>
      intro chosen cur hpicks hcur
      rcases hcur.step (hpicks healthy List.mem_cons_self) chosen with ⟨i, cur', hstep, hcur', hstep64⟩
      rcases ih (chosen ++ [i]) cur' (fun S hS => hpicks S (List.mem_cons_of_mem _ hS)) hcur'
        with ⟨chosen'', cur'', hrun, hcur'', hrun64⟩
      refine ⟨chosen'', cur'', ?_, hcur'', ?_⟩
      . rw [Machine.run_of_step _ hstep, hrun]
      . intro hsmall
        rw [Machine.run_of_step _ (hstep64 hsmall), hrun64 hsmall]
  rcases hrun picks [] _ hpicks (bounded_zeros up) with ⟨chosen, cur, hrun, hcur, hrun64⟩
  exact ⟨chosen, cur, hrun, hcur.sum_eq, hcur.abs_le, hrun64⟩

def flapping : Upstream := Upstream.fromConfig {
  name := "u"
  peers := [
    { addr := { ip := .v4 0x0a000001, port := 80 }, weight := 5 },
    { addr := { ip := .v4 0x0a000002, port := 80 }, weight := 1 },
    { addr := { ip := .v4 0x0a000003, port := 80 }, weight := 1 }] }

theorem swrr_bounded_flapping
    : Machine.run (swrrStep64 flapping) ([], [0, 0, 0]) [[0, 1, 2], [1, 2], [1, 2], [2, 1, 0]]
        = some ([0, 1, 2, 0], [-4, 2, 2])
      ∧ ∀ eff ∈ [(-4 : Int), 2, 2], |eff| ≤ 2 * 7 := by
  rcases swrr_bounded flapping [[0, 1, 2], [1, 2], [1, 2], [2, 1, 0]] (by decide)
    with ⟨chosen, cur, hrun, -, habs, hrun64⟩
  cases hrun
  exact ⟨hrun64 (by decide), habs⟩

end run

end OpenRusty
