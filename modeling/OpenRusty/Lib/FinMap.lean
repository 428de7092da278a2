import Mathlib.Algebra.GroupWithZero.Nat
import Mathlib.Data.List.AList

/-!
This module contains the operations on finite maps that `AList` itself lacks: `retain`, which keeps
the entries that pass a test, and `weight`, the sum of a size function over all entries, together
with the theory of how insertion, removal and `retain` change the two.
-/

namespace AList

variable {α β : Type}

def weight (f : α → β → Nat) (m : AList fun _ : α => β) : Nat :=
  (m.entries.map fun e => f e.1 e.2).sum

def retain (p : α → β → Bool) (m : AList fun _ : α => β) : AList fun _ : α => β where
  entries := m.entries.filter fun e => p e.1 e.2
  nodupKeys := m.nodupKeys.sublist List.filter_sublist

theorem length_entries (m : AList fun _ : α => β) : m.entries.length = m.weight fun _ _ => 1 := by
  simp [weight]

theorem mem_entries_retain {p : α → β → Bool} {m : AList fun _ : α => β} {e : (_ : α) × β}
    : e ∈ (m.retain p).entries ↔ e ∈ m.entries ∧ p e.1 e.2 = true := by
  simp [retain]

theorem retain_eq_self {p : α → β → Bool} {m : AList fun _ : α => β} (h : ∀ e ∈ m.entries, p e.1 e.2 = true)
    : m.retain p = m := by
  apply AList.ext
  exact List.filter_eq_self.mpr h

theorem retain_retain (p q : α → β → Bool) (m : AList fun _ : α => β)
    : (m.retain p).retain q = m.retain fun k v => p k v && q k v := by
  simp only [retain, List.filter_filter, mk.injEq]
  congr 1
  funext e
  apply Bool.and_comm

theorem weight_retain (f : α → β → Nat) (p : α → β → Bool) (m : AList fun _ : α => β)
    : (m.retain p).weight f + (m.retain fun k v => !p k v).weight f = m.weight f := by
  simp only [weight, retain]
  induction m.entries with
  | nil => rfl
  | cons e l ih =>
    cases h : p e.1 e.2 with
    | true =>
      simp only [h, List.filter_cons, Bool.not_true, Bool.false_eq_true, ↓reduceIte, List.map_cons,
        List.sum_cons]
      omega
    | false =>
      simp only [h, List.filter_cons, Bool.not_false, Bool.false_eq_true, ↓reduceIte, List.map_cons,
        List.sum_cons]
      omega

theorem weight_retain_or (f : α → β → Nat) {p q : α → β → Bool} (m : AList fun _ : α => β)
    (hdisjoint : ∀ k v, q k v = true → p k v = false)
    : (m.retain fun k v => p k v || q k v).weight f = (m.retain p).weight f + (m.retain q).weight f := by
  have hsplit := weight_retain f p (m.retain fun k v => p k v || q k v)
  rw [retain_retain, retain_retain] at hsplit
  have hp : (fun k v => (p k v || q k v) && p k v) = p := by
    funext k v
    cases p k v <;> simp
  have hq : (fun k v => (p k v || q k v) && !p k v) = q := by
    funext k v
    have := hdisjoint k v
    cases hq : q k v <;> simp_all
  rw [hp, hq] at hsplit
  exact hsplit.symm

variable [DecidableEq α]

def weightAt (f : α → β → Nat) (m : AList fun _ : α => β) (k : α) : Nat :=
  (m.lookup k).elim 0 (f k)

theorem lookup_retain (p : α → β → Bool) (m : AList fun _ : α => β) (k : α)
    : (m.retain p).lookup k = (m.lookup k).filter (p k) := by
  apply Option.ext
  intro v
  rw [← Option.mem_def, mem_lookup_iff, mem_entries_retain]
  rw [Option.filter_eq_some_iff, ← Option.mem_def, mem_lookup_iff]

theorem weightAt_of_lookup {f : α → β → Nat} {m : AList fun _ : α => β} {k : α} {v : β}
    (h : m.lookup k = some v)
    : m.weightAt f k = f k v := by
  simp [weightAt, h]

theorem weightAt_of_lookup_eq_none {f : α → β → Nat} {m : AList fun _ : α => β} {k : α}
    (h : m.lookup k = none)
    : m.weightAt f k = 0 := by
  simp [weightAt, h]

theorem erase_eq_retain (m : AList fun _ : α => β) (k : α)
    : m.erase k = m.retain fun k' _ => decide (k' ≠ k) := by
  apply AList.ext
  have hnodup := m.nodupKeys
  change m.entries.kerase k = m.entries.filter _
  generalize m.entries = l at hnodup
  induction l with
  | nil => rfl
  | cons e l ih =>
    rw [List.nodupKeys_cons] at hnodup
    by_cases h : k = e.1
    . subst h
      rw [List.kerase_cons_eq rfl, List.filter_cons_of_neg (by simp), List.filter_eq_self.mpr]
      intro e' he'
      rw [decide_eq_true_iff]
      intro heq
      apply hnodup.1
      rw [← heq]
      apply List.mem_keys_of_mem he'
    . rw [List.kerase_cons_ne h, List.filter_cons_of_pos (by simpa using Ne.symm h), ih hnodup.2]

private theorem sum_kerase (f : α → β → Nat) (k : α)
    (l : List ((_ : α) × β))
    : ((l.kerase k).map fun e => f e.1 e.2).sum + (l.dlookup k).elim 0 (f k)
        =
      (l.map fun e => f e.1 e.2).sum := by
  induction l with
  | nil => simp
  | cons e l ih =>
    by_cases h : k = e.1
    . subst h
      rw [List.kerase_cons_eq rfl, List.dlookup_cons_eq]
      simp only [Option.elim_some, List.map_cons, List.sum_cons]
      omega
    . rw [List.kerase_cons_ne h, List.dlookup_cons_ne _ _ h]
      simp only [List.map_cons, List.sum_cons]
      omega

theorem weight_erase (f : α → β → Nat) (m : AList fun _ : α => β) (k : α)
    : (m.erase k).weight f + m.weightAt f k = m.weight f := by
  apply sum_kerase

theorem weight_insert (f : α → β → Nat) (m : AList fun _ : α => β) (k : α) (v : β)
    : (m.insert k v).weight f = f k v + (m.erase k).weight f := by
  unfold weight
  rw [entries_insert, List.map_cons, List.sum_cons]
  rfl

theorem length_entries_insert (m : AList fun _ : α => β) (k : α) (v : β)
    : (m.insert k v).entries.length
        =
      if (m.lookup k).isSome then m.entries.length else m.entries.length + 1 := by
  have herase := weight_erase (fun _ _ => 1) m k
  rw [length_entries, length_entries, weight_insert]
  cases h : m.lookup k with
  | none =>
    rw [weightAt_of_lookup_eq_none h] at herase
    simp only [Option.isSome_none, Bool.false_eq_true, if_false]
    omega
  | some w =>
    rw [weightAt_of_lookup h] at herase
    simp only [Option.isSome_some, if_true]
    omega

theorem weightAt_le (f : α → β → Nat) (m : AList fun _ : α => β) (k : α)
    : m.weightAt f k ≤ m.weight f := by
  have := weight_erase f m k
  omega

theorem weight_erase_retain_le (f : α → β → Nat) (p : α → β → Bool) (m : AList fun _ : α => β)
    (k : α)
    : ((m.retain p).erase k).weight f ≤ (m.erase k).weight f := by
  have hkept := weight_erase f (m.retain p) k
  have hall := weight_erase f m k
  have hsplit := weight_retain f p m
  have hdropped := weightAt_le f (m.retain fun k v => !p k v) k
  cases hlook : m.lookup k with
  | none =>
    rw [weightAt_of_lookup_eq_none (by simp [lookup_retain, hlook])] at hkept
    rw [weightAt_of_lookup_eq_none hlook] at hall
    omega
  | some v =>
    rw [weightAt_of_lookup hlook] at hall
    -- The entry at `k` is counted on exactly one side of the split.
    cases hp : p k v with
    | true =>
      rw [weightAt_of_lookup (v := v) (by simp [lookup_retain, hlook, hp])] at hkept
      omega
    | false =>
      rw [weightAt_of_lookup (v := v) (by simp [lookup_retain, hlook, hp])] at hdropped
      omega

theorem weight_erase_erase_le (f : α → β → Nat) (m : AList fun _ : α => β) (k k' : α)
    : ((m.erase k').erase k).weight f ≤ (m.erase k).weight f := by
  have := weight_erase f (m.erase k) k'
  rw [erase_erase]
  omega

theorem lookup_foldl_insert {γ : Type} (key : γ → α) (value : γ → β) (l : List γ)
    (m : AList fun _ : α => β) (k : α)
    : (l.foldl (fun m x => m.insert (key x) (value x)) m).lookup k
        =
      ((l.reverse.find? fun x => key x == k).map value).or (m.lookup k) := by
  induction l generalizing m with
  | nil => simp
  | cons x l ih =>
    rw [List.foldl_cons, ih, List.reverse_cons, List.find?_append]
    cases l.reverse.find? fun x => key x == k with
    | some y => simp
    | none =>
      by_cases h : key x = k
      . subst h
        simp
      . rw [lookup_insert_ne (Ne.symm h)]
        simp [h]

theorem lookup_foldl_insert_of_nodup {γ : Type} {key : γ → α} (value : γ → β) {l : List γ}
    (hnodup : (l.map key).Nodup) {x : γ} (hx : x ∈ l)
    : (l.foldl (fun (m : AList fun _ : α => β) x => m.insert (key x) (value x)) ∅).lookup (key x)
        =
      some (value x) := by
  rw [lookup_foldl_insert]
  cases hfind : l.reverse.find? fun y => key y == key x with
  | none =>
    rw [List.find?_eq_none] at hfind
    exact absurd (BEq.rfl : (key x == key x) = true) (hfind x (List.mem_reverse.mpr hx))
  | some y =>
    have hy : y ∈ l := List.mem_reverse.mp (List.mem_of_find?_eq_some hfind)
    have hkey : key y = key x := by simpa using List.find?_some hfind
    rw [List.inj_on_of_nodup_map hnodup hy hx hkey]
    simp

theorem mem_of_lookup_foldl_insert {γ : Type} {key : γ → α} {value : γ → β} {l : List γ} {k : α} {v : β}
    (h : (l.foldl (fun (m : AList fun _ : α => β) x => m.insert (key x) (value x)) ∅).lookup k = some v)
    : ∃ x ∈ l, key x = k ∧ value x = v := by
  rw [lookup_foldl_insert, lookup_empty, Option.or_none, Option.map_eq_some_iff] at h
  rcases h with ⟨x, hfind, hvalue⟩
  refine ⟨x, List.mem_reverse.mp (List.mem_of_find?_eq_some hfind), ?_, hvalue⟩
  simpa using List.find?_some hfind

theorem lookup_foldl_update {γ : Type} (key : γ → α) (add : β → γ → β) (d : β) (l : List γ)
    (m : AList fun _ : α => β) (k : α)
    : (l.foldl (fun m x => m.insert (key x) (add ((m.lookup (key x)).getD d) x)) m).lookup k
        =
      if (l.filter fun x => key x = k) = [] then
        m.lookup k
      else
        some ((l.filter fun x => key x = k).foldl add ((m.lookup k).getD d)) := by
  induction l generalizing m with
  | nil => simp
  | cons x l ih =>
    rw [List.foldl_cons, ih]
    by_cases h : key x = k
    . subst h
      rw [lookup_insert, List.filter_cons_of_pos (by simp)]
      by_cases hl : (l.filter fun y => key y = key x) = []
      . simp [hl]
      . simp [hl]
    . rw [lookup_insert_ne (Ne.symm h), List.filter_cons_of_neg (by simp [h])]

end AList
