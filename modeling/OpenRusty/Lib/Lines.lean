/-!
This module contains streams that are cut into lines at a separator. A line that is not complete yet is
kept and continued by the next piece of the stream, so the lines do not depend on the pieces.
-/

namespace Lines

variable {α : Type} [DecidableEq α] (sep : α)

def cut (line stream : List α) : List (List α) × List α :=
  match stream with
  | [] => ([], line)
  | a :: stream =>
    if a = sep then
      (line :: (cut [] stream).1, (cut [] stream).2)
    else
      cut (line ++ [a]) stream

@[simp]
theorem cut_nil (line : List α) : cut sep line [] = ([], line) := by
  rfl

theorem cut_append (line s t : List α)
    : cut sep line (s ++ t)
        =
      ((cut sep line s).1 ++ (cut sep (cut sep line s).2 t).1, (cut sep (cut sep line s).2 t).2) := by
  fun_induction cut sep line s with
  | case1 line => rfl
  | case2 line s ih =>
    rw [List.cons_append, cut, if_pos rfl, ih]
    rfl
  | case3 line a s hsep ih =>
    rw [List.cons_append, cut, if_neg hsep]
    exact ih

variable {sep}

theorem cut_of_free {line s : List α} (h : sep ∉ s) : cut sep line s = ([], line ++ s) := by
  induction s generalizing line with
  | nil => simp
  | cons a s ih =>
    rw [List.mem_cons, not_or] at h
    rw [cut, if_neg (Ne.symm h.1), ih h.2, List.append_assoc, List.singleton_append]

theorem cut_of_pending {line : List α} (h : sep ∉ line) (s : List α) : cut sep [] (line ++ s) = cut sep line s := by
  rw [cut_append, cut_of_free h]
  rfl

theorem sep_notMem_rest {line : List α} (h : sep ∉ line) (s : List α) : sep ∉ (cut sep line s).2 := by
  fun_induction cut sep line s with
  | case1 line => exact h
  | case2 line s ih => exact ih (by simp)
  | case3 line a s hsep ih =>
    apply ih
    rw [List.mem_append, List.mem_singleton]
    rintro (hmem | rfl)
    . exact h hmem
    . exact hsep rfl

end Lines
