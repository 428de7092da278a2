/-!
This module contains the theory of lists that are joined by a separator. The join determines its first
or its last part if that part is free of the separator; the other parts can be confused exactly when the
separator occurs in them.
-/

namespace List

variable {α : Type} {a a' b b' : List α} {c : α}

theorem append_cons_eq_iff
    : a ++ c :: b = a' ++ c :: b'
        ↔
      (a = a' ∧ b = b')
        ∨ (∃ e, a' = a ++ c :: e ∧ b = e ++ c :: b')
        ∨ ∃ e, a = a' ++ c :: e ∧ b' = e ++ c :: b := by
  constructor
  . intro h
    rcases List.append_eq_append_iff.mp h with ⟨e, rfl, he⟩ | ⟨e, rfl, he⟩
    . cases e with
      | nil => simp_all
      | cons x e =>
        simp only [cons_append, cons.injEq] at he
        obtain ⟨rfl, rfl⟩ := he
        exact .inr (.inl ⟨e, rfl, rfl⟩)
    . cases e with
      | nil => simp_all
      | cons x e =>
        simp only [cons_append, cons.injEq] at he
        obtain ⟨rfl, rfl⟩ := he
        exact .inr (.inr ⟨e, rfl, rfl⟩)
  . rintro (⟨rfl, rfl⟩ | ⟨e, rfl, rfl⟩ | ⟨e, rfl, rfl⟩)
    . rfl
    . simp
    . simp

theorem append_cons_inj_of_free (hb : c ∉ b) (hb' : c ∉ b')
    : a ++ c :: b = a' ++ c :: b' ↔ a = a' ∧ b = b' := by
  rw [append_cons_eq_iff]
  constructor
  . rintro (h | ⟨e, -, rfl⟩ | ⟨e, -, rfl⟩)
    . exact h
    . simp at hb
    . simp at hb'
  . intro h
    exact .inl h

theorem append_cons_inj_of_free_left (ha : c ∉ a) (ha' : c ∉ a')
    : a ++ c :: b = a' ++ c :: b' ↔ a = a' ∧ b = b' := by
  rw [append_cons_eq_iff]
  constructor
  . rintro (h | ⟨e, rfl, -⟩ | ⟨e, rfl, -⟩)
    . exact h
    . simp at ha'
    . simp at ha
  . intro h
    exact .inl h

theorem intercalate_append {ls ls' : List (List α)} (h : ls ≠ []) (h' : ls' ≠ [])
    : [c].intercalate (ls ++ ls') = [c].intercalate ls ++ c :: [c].intercalate ls' := by
  induction ls with
  | nil => contradiction
  | cons l ls ih =>
    cases ls with
    | nil => simp [intercalate_cons_of_ne_nil h']
    | cons l' ls =>
      have hcons := ih (cons_ne_nil l' ls)
      rw [cons_append] at hcons
      rw [cons_append, cons_append, intercalate_cons_cons, hcons, intercalate_cons_cons]
      simp

variable [DecidableEq α] {l l' : List α}

theorem splitOn_prefix_iff : l.splitOn c <+: l'.splitOn c ↔ l' = l ∨ l ++ [c] <+: l' := by
  constructor
  . rintro ⟨rest, h⟩
    have hjoin := congrArg [c].intercalate h
    rw [intercalate_splitOn] at hjoin
    cases rest with
    | nil =>
      left
      rw [← hjoin, append_nil, intercalate_splitOn]
    | cons r rest =>
      right
      rw [intercalate_append (splitOn_ne_nil c l) (by simp), intercalate_splitOn] at hjoin
      exact ⟨_, by rw [← hjoin, append_assoc, singleton_append]⟩
  . rintro (rfl | ⟨rest, rfl⟩)
    . apply prefix_refl
    . rw [append_assoc, singleton_append, splitOn_append_cons_self]
      apply prefix_append

end List
