import Mathlib.Data.List.Permutation
import OpenRusty.Lib.Pool

/-!
This module contains the theory of calls that take effect one after the other. A thread of a pool runs
one call, `effect` is what the call did once it has taken effect. If every step either leaves the
object alone or is a step of the sequential object, taken for the one call that takes effect with it,
then every run of the pool is a sequential run of the calls that took effect.
-/

def Replays {α κ : Type} (R : α → κ → α → Prop) (a : α) (cs : List κ) (b : α) : Prop :=
  match cs with
  | [] => a = b
  | c :: cs => ∃ m, R a c m ∧ Replays R m cs b

namespace Replays

variable {α κ : Type} {R : α → κ → α → Prop}

theorem of_perm_pair {a b : α} {c d : κ} {cs : List κ} (hperm : cs.Perm [c, d]) (h : Replays R a cs b)
    : Replays R a [c, d] b ∨ Replays R a [d, c] b := by
  rcases List.perm_pair.mp hperm with rfl | rfl
  . exact .inl h
  . exact .inr h

end Replays

namespace Pool

variable {σ τ ο ι α κ : Type} (effect : τ → Option κ)

def effects (p : Pool σ τ) : List κ := p.threads.filterMap effect

section effects

variable {effect} {p : Pool σ τ}

theorem effects_spawn {t : τ} (ht : effect t = none)
    : effects effect { p with threads := p.threads ++ [t] } = p.effects effect := by
  simp [effects, ht]

theorem effects_set {i : Nat} {t t' : τ} (h : p.threads[i]? = some t) (ht : effect t' = effect t) (s : σ)
    : effects effect { shared := s, threads := p.threads.set i t' } = p.effects effect := by
  unfold effects
  dsimp only
  revert h
  generalize p.threads = ts
  intro h
  induction ts generalizing i with
  | nil => rfl
  | cons u ts ih =>
    cases i with
    | zero =>
      cases h
      rw [List.set_cons_zero, List.filterMap_cons, List.filterMap_cons, ht]
    | succ i =>
      rw [List.set_cons_succ, List.filterMap_cons, List.filterMap_cons, ih h]

theorem effects_set_some {i : Nat} {t t' : τ} {c : κ} (h : p.threads[i]? = some t) (ht : effect t = none)
    (ht' : effect t' = some c) (s : σ)
    : (p.effects effect ++ [c]).Perm (effects effect { shared := s, threads := p.threads.set i t' }) := by
  apply (List.perm_append_singleton c _).trans
  unfold effects
  dsimp only
  revert h
  generalize p.threads = ts
  intro h
  induction ts generalizing i with
  | nil => cases h
  | cons u ts ih =>
    cases i with
    | zero =>
      cases h
      rw [List.set_cons_zero, List.filterMap_cons_none ht, List.filterMap_cons_some ht']
    | succ i =>
      rw [List.set_cons_succ, List.filterMap_cons, List.filterMap_cons]
      cases effect u with
      | none => apply ih h
      | some d =>
        apply (List.Perm.swap d c _).trans
        apply List.Perm.cons
        apply ih h

end effects

variable {effect} {spawn : ο → τ} {act : σ → τ → ι → Option (σ × τ)} {R : α → κ → α → Prop}

theorem sequential_of_run (abs : σ → α) {ok : Pool σ τ → Event ο ι → Prop} {I : Pool σ τ → Prop}
    (hspawn : ∀ o, effect (spawn o) = none)
    (hinv : ∀ p e q, I p → ok p e → step spawn act p e = some q → I q)
    (hact : ∀ p i x t s t', I p → ok p (.step i x) → p.threads[i]? = some t →
      act p.shared t x = some (s, t') →
      abs s = abs p.shared ∧ effect t' = effect t
        ∨ ∃ c, effect t = none ∧ effect t' = some c ∧ R (abs p.shared) c (abs s))
    {p q : Pool σ τ} {es : List (Event ο ι)} (hI : I p) (hok : Machine.Guarded (step spawn act) ok p es)
    (hrun : Machine.run (step spawn act) p es = some q)
    : ∃ cs, Replays R (abs p.shared) cs (abs q.shared)
        ∧ (p.effects effect ++ cs).Perm (q.effects effect) := by
  induction es generalizing p with
  | nil =>
    cases hrun
    refine ⟨[], rfl, ?_⟩
    rw [List.append_nil]
  | cons e es ih =>
    rcases (Machine.run_cons_eq_some _).mp hrun with ⟨r, hr, hrest⟩
    rcases ih (hinv p e r hI hok.1 hr) (hok.2 r hr) hrest with ⟨cs, hcs, hperm⟩
    rcases step_cases spawn act hr with ⟨o, rfl, rfl⟩ | ⟨i, x, t, s, t', rfl, ht, hstep, rfl⟩
    . refine ⟨cs, hcs, ?_⟩
      rw [effects_spawn (hspawn o)] at hperm
      exact hperm
    -- The step is either invisible, or it is the point at which the call of its thread takes effect.
    . rcases hact p i x t s t' hI hok.1 ht hstep with ⟨habs, heffect⟩ | ⟨c, hnone, hsome, hR⟩
      . dsimp only at hcs
        rw [habs] at hcs
        rw [effects_set ht heffect] at hperm
        exact ⟨cs, hcs, hperm⟩
      . refine ⟨c :: cs, ⟨abs s, hR, hcs⟩, ?_⟩
        rw [List.append_cons]
        apply List.Perm.trans _ hperm
        apply List.Perm.append_right
        apply effects_set_some ht hnone hsome

end Pool
