import Mathlib.Data.List.Induction
import Mathlib.Data.List.Infix

/-!
This module contains the theory of runs in a sequence of results: `runLength b l` is the number of results
`b` in a row at the end of `l`. A sequence is tripped if a run of `lows` failures is followed by no run of
`highs` successes, and one more result decides this from the run that it is the end of.
-/

namespace Runs

variable {α : Type} [DecidableEq α]

def runLength (b : α) (l : List α) : Nat := l.foldl (fun n x => if x = b then n + 1 else 0) 0

@[simp]
theorem runLength_concat_self (b : α) (l : List α) : runLength b (l ++ [b]) = runLength b l + 1 := by
  simp [runLength]

theorem runLength_concat_ne {b x : α} (h : x ≠ b) (l : List α) : runLength b (l ++ [x]) = 0 := by
  simp [runLength, h]

omit [DecidableEq α] in
theorem replicate_suffix_concat {b x : α} {n : Nat} {l : List α}
    : List.replicate (n + 1) b <:+ l ++ [x] ↔ x = b ∧ List.replicate n b <:+ l := by
  rw [List.replicate_succ']
  constructor
  . rintro ⟨pre, hpre⟩
    rw [← List.append_assoc] at hpre
    rcases List.append_inj' hpre rfl with ⟨hl, hx⟩
    cases hx
    exact ⟨rfl, pre, hl⟩
  . rintro ⟨rfl, pre, rfl⟩
    exact ⟨pre, by simp⟩

theorem replicate_suffix_iff {b : α} {n : Nat} {l : List α}
    : List.replicate n b <:+ l ↔ n ≤ runLength b l := by
  induction l using List.reverseRecOn generalizing n with
  | nil => simp [runLength]
  | append_singleton l x ih =>
    cases n with
    | zero => simp
    | succ n =>
      rw [replicate_suffix_concat, ih]
      by_cases hx : x = b
      . subst hx
        simp
      . simp [hx, runLength_concat_ne hx]

def Tripped (lows highs : Nat) (l : List Bool) : Prop :=
  ∃ pre post, l = pre ++ List.replicate lows false ++ post ∧ ¬List.replicate highs true <:+: post

section tripped

variable {lows highs : Nat} {l : List Bool}

theorem not_tripped_nil (hlows : 1 ≤ lows) : ¬Tripped lows highs [] := by
  rintro ⟨pre, post, hl, -⟩
  have := congrArg List.length hl
  simp at this
  omega

theorem tripped_concat_false (hhighs : 1 ≤ highs)
    : Tripped lows highs (l ++ [false]) ↔ Tripped lows highs l ∨ lows ≤ runLength false (l ++ [false]) := by
  have hne : List.replicate highs true ≠ [] := by
    simp
    omega
  constructor
  . rintro ⟨pre, post, hl, hpost⟩
    induction post using List.reverseRecOn with
    | nil =>
      right
      rw [← replicate_suffix_iff, hl, List.append_nil]
      apply List.suffix_append
    | append_singleton post y _ =>
      left
      rw [← List.append_assoc] at hl
      rcases List.append_inj' hl rfl with ⟨hl', -⟩
      refine ⟨pre, post, hl', ?_⟩
      intro hinfix
      exact hpost (List.infix_concat_iff.mpr (.inr hinfix))
  . rintro (⟨pre, post, rfl, hpost⟩ | hrun)
    . refine ⟨pre, post ++ [false], by simp, ?_⟩
      rw [List.infix_concat_iff, not_or, replicate_suffix_iff, runLength_concat_ne (by decide)]
      exact ⟨by omega, hpost⟩
    . rcases replicate_suffix_iff.mpr hrun with ⟨pre, hpre⟩
      refine ⟨pre, [], by simp [hpre], ?_⟩
      intro hinfix
      exact hne (List.eq_nil_of_infix_nil hinfix)

theorem runLength_append (hlows : 1 ≤ lows) (pre post : List Bool)
    : runLength true (pre ++ List.replicate lows false ++ post) = runLength true post := by
  induction post using List.reverseRecOn with
  | nil =>
    have hlast : List.replicate lows false = List.replicate (lows - 1) false ++ [false] := by
      rw [← List.replicate_succ', Nat.sub_add_cancel hlows]
    rw [List.append_nil, hlast, ← List.append_assoc, runLength_concat_ne (by decide)]
    rfl
  | append_singleton post x ih =>
    rw [← List.append_assoc]
    cases x with
    | true => rw [runLength_concat_self, runLength_concat_self, ih]
    | false => rw [runLength_concat_ne (by decide), runLength_concat_ne (by decide)]

theorem tripped_concat_true (hlows : 1 ≤ lows)
    : Tripped lows highs (l ++ [true]) ↔ Tripped lows highs l ∧ runLength true (l ++ [true]) < highs := by
  constructor
  . rintro ⟨pre, post, hl, hpost⟩
    induction post using List.reverseRecOn with
    | nil =>
      have hrun := congrArg (runLength true) hl
      rw [runLength_append hlows, runLength_concat_self] at hrun
      cases hrun
    | append_singleton post y _ =>
      have hrun := congrArg (runLength true) hl
      rw [runLength_append hlows] at hrun
      rw [← List.append_assoc] at hl
      rcases List.append_inj' hl rfl with ⟨hl', hy⟩
      rw [List.infix_concat_iff, not_or, replicate_suffix_iff, ← hrun] at hpost
      exact ⟨⟨pre, post, hl', hpost.2⟩, by omega⟩
  . rintro ⟨⟨pre, post, rfl, hpost⟩, hrun⟩
    refine ⟨pre, post ++ [true], by simp, ?_⟩
    rw [List.append_assoc, runLength_append hlows] at hrun
    rw [List.infix_concat_iff, not_or, replicate_suffix_iff]
    exact ⟨by omega, hpost⟩

end tripped

end Runs
