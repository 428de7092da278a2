import Mathlib.Algebra.BigOperators.Group.List.Basic
import Mathlib.Algebra.GroupWithZero.Nat

/-!
This module contains lexers: machines that read a text character by character, emit characters on the
way, and stop at one. A lexer that emits no more than it reads gives a text that is no larger than the
one it was given, unless it reads on behind it.
-/

inductive Lexer.Action (σ : Type) where
  | next (out : List Char) (mode : σ)
  -- The end, which may be noticed one character late.
  | close (out : List Char) (taken : Bool)
  | fail

structure Lexer (σ : Type) where
  step : σ → Char → Lexer.Action σ
  atEnd : σ → Option (List Char)

namespace Lexer

variable {σ : Type} (l : Lexer σ)

def read (mode : σ) (chars : List Char) : Option (List Char × List Char) :=
  match chars with
  | [] => (l.atEnd mode).map fun out => (out, [])
  | c :: rest =>
    match l.step mode c with
    | .next out mode => (read mode rest).map fun r => (out ++ r.1, r.2)
    | .close out taken => some (out, if taken then rest else c :: rest)
    | .fail => none

def run (mode : σ) (chars : List Char) : Option (List Char × σ) :=
  match chars with
  | [] => some ([], mode)
  | c :: rest =>
    match l.step mode c with
    | .next out mode => (run mode rest).map fun r => (out ++ r.1, r.2)
    | .close _ _ => none
    | .fail => none

section step

variable {l} {mode mode' : σ} {c : Char} {rest out v behind : List Char}

theorem read_next (h : l.step mode c = .next out mode')
    : l.read mode (c :: rest) = (l.read mode' rest).map fun r => (out ++ r.1, r.2) := by
  rw [read, h]

theorem read_fail (h : l.step mode c = .fail) : l.read mode (c :: rest) = none := by
  rw [read, h]

theorem step_of_run_append {text : List Char} (h : l.run mode (text ++ [c]) = some (out, mode'))
    : ∃ before out', l.step before c = .next out' mode' := by
  induction text generalizing mode out with
  | nil =>
    rw [List.nil_append, run] at h
    split at h
    . next out' mode'' hstep =>
      simp only [run, Option.map_some, Option.some.injEq, Prod.mk.injEq] at h
      rw [h.2] at hstep
      exact ⟨mode, out', hstep⟩
    . cases h
    . cases h
  | cons d text ih =>
    rw [List.cons_append, run] at h
    split at h
    . obtain ⟨r, hr, heq⟩ := Option.map_eq_some_iff.mp h
      cases heq
      exact ih hr
    . cases h
    . cases h

end step

section weight

variable (weigh : Char → Nat)

def weight (chars : List Char) : Nat := (chars.map weigh).sum

@[simp]
theorem weight_nil : weight weigh [] = 0 := rfl

@[simp]
theorem weight_cons (c : Char) (chars : List Char) : weight weigh (c :: chars) = weigh c + weight weigh chars := by
  simp [weight]

@[simp]
theorem weight_append (a b : List Char) : weight weigh (a ++ b) = weight weigh a + weight weigh b := by
  simp [weight]

structure Bounded (held : σ → Nat) : Prop where
  next : ∀ {mode c out mode'}, l.step mode c = .next out mode' →
    weight weigh out + held mode' ≤ held mode + weigh c
  close : ∀ {mode c out taken}, l.step mode c = .close out taken → weight weigh out ≤ held mode + weigh c

variable {l weigh} {held : σ → Nat} {mode : σ} {text behind v rest : List Char}

theorem Bounded.read_append (hb : l.Bounded weigh held) (h : l.read mode (text ++ behind) = some (v, rest))
    : weight weigh v ≤ held mode + weight weigh text
        ∨ ∃ out mode' v', l.run mode text = some (out, mode') ∧ l.read mode' behind = some (v', rest)
          ∧ v = out ++ v' ∧ weight weigh out + held mode' ≤ held mode + weight weigh text := by
  induction text generalizing mode v with
  | nil => exact .inr ⟨[], mode, v, rfl, h, rfl, by simp⟩
  | cons c text ih =>
    rw [List.cons_append, read] at h
    cases hstep : l.step mode c with
    | fail =>
      rw [hstep] at h
      cases h
    | close out taken =>
      rw [hstep] at h
      cases h
      left
      have := hb.close hstep
      rw [weight_cons]
      omega
    | next out mode' =>
      rw [hstep] at h
      obtain ⟨⟨v', rest'⟩, hr, heq⟩ := Option.map_eq_some_iff.mp h
      cases heq
      have hnext := hb.next hstep
      rcases ih hr with hle | ⟨out', mode'', v'', hrun, hread, rfl, hle⟩
      . left
        dsimp only
        rw [weight_append, weight_cons]
        omega
      . right
        refine ⟨out ++ out', mode'', v'', ?_, hread, (List.append_assoc _ _ _).symm, ?_⟩
        . rw [run, hstep]
          dsimp only
          rw [hrun]
          rfl
        . rw [weight_append, weight_cons]
          omega

end weight

end Lexer
