import Mathlib.Data.List.Perm.Basic
import Mathlib.Data.List.ReduceOption

/-!
This module contains the greedy matching of items to keys: every key takes the first item that has it
and that no key before it took. It finds an item for every key as soon as items and keys are a
permutation of each other, and items with the same key keep their order. The matching over a list of
slots, which it empties one after the other, is the one over the items that are left in the slots.
-/

namespace Matching

variable {α β κ : Type} [DecidableEq κ]

def assign (key : α → κ) (items : List α) (keys : List κ) : Option (List α) :=
  match keys with
  | [] => if items.isEmpty then some [] else none
  | k :: keys =>
    match items.find? fun x => key x = k with
    | some x => (assign key (items.eraseP fun x => key x = k) keys).map fun out => x :: out
    | none => none

section assign

variable {key : α → κ} {items out : List α} {keys : List κ}

theorem filter_eraseP {k : κ} {x : α} (h : items.find? (fun x => key x = k) = some x) (k' : κ)
    : items.filter (fun x => key x = k')
        =
      if k = k' then
        x :: (items.eraseP fun x => key x = k).filter fun x => key x = k'
      else
        (items.eraseP fun x => key x = k).filter fun x => key x = k' := by
  induction items with
  | nil => cases h
  | cons y items ih =>
    rw [List.find?_cons] at h
    split at h
    . next hy =>
      cases h
      have hkey : key x = k := by
        simpa using hy
      rw [List.eraseP_cons_of_pos (by simpa using hy), List.filter_cons, hkey]
      simp
    . next hy =>
      rw [List.eraseP_cons_of_neg (by simpa using hy), List.filter_cons, ih h]
      by_cases heq : k = k'
      . subst heq
        simp_all
      . simp [heq, List.filter_cons]

theorem perm_eraseP {k : κ} {x : α} (h : items.find? (fun x => key x = k) = some x)
    : items.Perm (x :: items.eraseP fun x => key x = k) := by
  induction items with
  | nil => cases h
  | cons y items ih =>
    rw [List.find?_cons] at h
    split at h
    . next hy =>
      cases h
      rw [List.eraseP_cons_of_pos (by simpa using hy)]
    . next hy =>
      rw [List.eraseP_cons_of_neg (by simpa using hy)]
      exact ((ih h).cons y).trans (List.Perm.swap x y _)

theorem assign_eq_some
    : assign key items keys = some out
        ↔
      out.map key = keys
        ∧ ∀ k, out.filter (fun x => key x = k) = items.filter fun x => key x = k := by
  induction keys generalizing items out with
  | nil =>
    unfold assign
    cases items with
    | nil =>
      simp only [List.isEmpty_nil, if_true, Option.some.injEq, List.map_eq_nil_iff]
      constructor
      . rintro rfl
        simp
      . rintro ⟨rfl, -⟩
        rfl
    | cons x items =>
      simp only [List.isEmpty_cons, Bool.false_eq_true, if_false, reduceCtorEq, List.map_eq_nil_iff,
        false_iff, not_and]
      rintro rfl h
      have := h (key x)
      simp at this
  | cons k keys ih =>
    unfold assign
    split
    . next x hx =>
      have hkey : key x = k := by
        simpa using List.find?_some hx
      rw [Option.map_eq_some_iff]
      constructor
      . rintro ⟨out', hout, rfl⟩
        rw [ih] at hout
        refine ⟨by rw [List.map_cons, hkey, hout.1], ?_⟩
        intro k'
        rw [filter_eraseP hx, ← hout.2, List.filter_cons, hkey]
        simp
      -- The first item of the key stands before the other items of the key in `out` as well.
      . rintro ⟨hmap, hfilter⟩
        obtain ⟨y, out', rfl, hy, hmap⟩ := List.map_eq_cons_iff.mp hmap
        have hhead := hfilter k
        rw [filter_eraseP hx, if_pos rfl, List.filter_cons, if_pos (by simpa using hy),
          List.cons.injEq] at hhead
        obtain ⟨rfl, hhead⟩ := hhead
        refine ⟨out', ?_, rfl⟩
        rw [ih]
        refine ⟨hmap, ?_⟩
        intro k'
        by_cases heq : k = k'
        . rw [← heq, hhead]
        . have := hfilter k'
          rwa [filter_eraseP hx, if_neg heq, List.filter_cons,
            if_neg (by simpa [hy] using heq)] at this
    . next hnone =>
      simp only [reduceCtorEq, false_iff, not_and]
      intro hmap hfilter
      obtain ⟨y, out', rfl, hy, -⟩ := List.map_eq_cons_iff.mp hmap
      have hmem : y ∈ items.filter fun x => key x = k := by
        rw [← hfilter k]
        simp [hy]
      rw [List.mem_filter] at hmem
      exact List.find?_eq_none.mp hnone y hmem.1 hmem.2

theorem exists_assign (h : (items.map key).Perm keys)
    : ∃ out, assign key items keys = some out ∧ out.Perm items := by
  induction keys generalizing items with
  | nil =>
    rw [List.perm_nil, List.map_eq_nil_iff] at h
    subst h
    exact ⟨[], rfl, .nil⟩
  | cons k keys ih =>
    have hmem : k ∈ items.map key := h.mem_iff.mpr (List.mem_cons_self ..)
    obtain ⟨y, hy, hkey⟩ := List.mem_map.mp hmem
    have hsome : (items.find? fun x => key x = k).isSome := by
      rw [List.find?_isSome]
      exact ⟨y, hy, by simpa using hkey⟩
    obtain ⟨x, hx⟩ := Option.isSome_iff_exists.mp hsome
    have hxkey : key x = k := by
      simpa using List.find?_some hx
    have hrest : ((items.eraseP fun x => key x = k).map key).Perm keys := by
      have hperm := ((perm_eraseP hx).map key).symm.trans h
      rw [List.map_cons, hxkey] at hperm
      exact hperm.cons_inv
    obtain ⟨out, hout, hperm⟩ := ih hrest
    refine ⟨x :: out, ?_, (hperm.cons x).trans (perm_eraseP hx).symm⟩
    simp only [assign, hx, hout, Option.map_some]

variable (key keys) in
theorem assign_map (f : β → α) (l : List β)
    : assign key (l.map f) keys = (assign (key ∘ f) l keys).map fun out => out.map f := by
  induction keys generalizing l with
  | nil =>
    simp only [assign, List.isEmpty_map]
    split
    . rfl
    . rfl
  | cons k keys ih =>
    unfold assign
    rw [List.find?_map]
    have hcomp : (fun x => decide (key x = k)) ∘ f = fun x => decide ((key ∘ f) x = k) := rfl
    rw [hcomp]
    cases l.find? fun x => decide ((key ∘ f) x = k) with
    | none => rfl
    | some x =>
      rw [Option.map_some, List.eraseP_map, hcomp]
      dsimp only
      rw [ih, Option.map_map, Option.map_map]
      rfl

end assign

def takeAll (slots : List (Option α)) (order : List Nat) : Option (List α) :=
  match order with
  | [] => some []
  | i :: order =>
    match slots[i]? with
    | some (some x) => (takeAll (slots.set i none) order).map fun out => x :: out
    | _ => none

def slotsOf (items : List α) (used : List Bool) : List (Option α) :=
  List.zipWith (fun x u => if u then none else some x) items used

section slots

variable {slots : List (Option α)} {p : α → Bool} {i : Nat}

theorem take_of_findIdx (h : slots.findIdx? (fun o => o.any p) = some i)
    : ∃ x, slots[i]? = some (some x) ∧ slots.reduceOption.find? p = some x
      ∧ (slots.set i none).reduceOption = slots.reduceOption.eraseP p := by
  induction slots generalizing i with
  | nil => cases h
  | cons o slots ih =>
    rw [List.findIdx?_cons] at h
    split at h
    . next hp =>
      cases h
      cases o with
      | none => cases hp
      | some x =>
        rw [Option.any_some] at hp
        refine ⟨x, rfl, ?_, ?_⟩
        . rw [List.reduceOption_cons_of_some, List.find?_cons_of_pos hp]
        . rw [List.set_cons_zero, List.reduceOption_cons_of_none, List.reduceOption_cons_of_some,
            List.eraseP_cons_of_pos hp]
    . next hp =>
      obtain ⟨j, hj, rfl⟩ := Option.map_eq_some_iff.mp h
      obtain ⟨x, hget, hfind, hset⟩ := ih hj
      refine ⟨x, by simpa using hget, ?_⟩
      rw [List.set_cons_succ]
      cases o with
      | none =>
        rw [List.reduceOption_cons_of_none, List.reduceOption_cons_of_none]
        exact ⟨hfind, hset⟩
      | some y =>
        rw [Option.any_some] at hp
        rw [List.reduceOption_cons_of_some, List.reduceOption_cons_of_some,
          List.find?_cons_of_neg hp, List.eraseP_cons_of_neg hp, hset]
        exact ⟨hfind, rfl⟩

theorem find_of_findIdx_eq_none (h : slots.findIdx? (fun o => o.any p) = none)
    : slots.reduceOption.find? p = none := by
  rw [List.findIdx?_eq_none_iff] at h
  rw [List.find?_eq_none]
  intro x hx
  rw [List.reduceOption_mem_iff] at hx
  simpa using h _ hx

theorem findIdx_slotsOf (items : List α) (used : List Bool)
    : (slotsOf items used).findIdx? (fun o => o.any p)
        =
      (items.zip used).findIdx? fun x => !x.2 && p x.1 := by
  induction items generalizing used with
  | nil => rfl
  | cons x items ih =>
    cases used with
    | nil => rfl
    | cons u used =>
      unfold slotsOf at ih ⊢
      rw [List.zipWith_cons_cons, List.zip_cons_cons, List.findIdx?_cons, List.findIdx?_cons, ih]
      cases u with
      | true => rfl
      | false => rfl

theorem set_slotsOf (items : List α) (used : List Bool) (i : Nat)
    : (slotsOf items used).set i none = slotsOf items (used.set i true) := by
  induction items generalizing used i with
  | nil => rfl
  | cons x items ih =>
    cases used with
    | nil => rfl
    | cons u used =>
      cases i with
      | zero => rfl
      | succ i => exact congrArg _ (ih used i)

theorem slotsOf_unused (items : List α) : slotsOf items (items.map fun _ => false) = items.map some := by
  induction items with
  | nil => rfl
  | cons x items ih => exact congrArg _ ih

theorem reduceOption_slotsOf_unused (items : List α)
    : (slotsOf items (items.map fun _ => false)).reduceOption = items := by
  rw [slotsOf_unused]
  simp [List.reduceOption]

theorem any_unused {items : List α} {used : List Bool} (hlen : used.length = items.length)
    (h : (slotsOf items used).reduceOption = [])
    : (used.any fun u => !u) = false := by
  induction items generalizing used with
  | nil =>
    rw [List.length_nil, List.length_eq_zero_iff] at hlen
    subst hlen
    rfl
  | cons x items ih =>
    cases used with
    | nil => rfl
    | cons u used =>
      unfold slotsOf at h
      rw [List.zipWith_cons_cons] at h
      cases u with
      | true =>
        rw [if_pos rfl, List.reduceOption_cons_of_none] at h
        have hlen' : used.length = items.length := by
          simpa using hlen
        rw [List.any_cons, ih hlen' h]
        rfl
      | false => cases h

end slots

end Matching
