import Mathlib.Algebra.Order.BigOperators.Group.List
import Mathlib.Algebra.Order.Ring.Nat
import OpenRusty.Lib.Machine

/-!
This module contains the theory of pools of threads that share one state. A thread takes one atomic
step at a time, `act s t x` being the step of the thread `t` in the shared state `s` on the input
`x` of its environment; new threads join at the end. `Pool.sum` adds up a quantity over all threads,
it is what turns a fact about the step of one thread into an invariant of the whole pool.
-/

structure Pool (σ τ : Type) where
  shared : σ
  threads : List τ

namespace Pool

variable {σ τ ο ι : Type}

inductive Event (ο ι : Type) where
  | spawn (o : ο)
  | step (i : Nat) (x : ι)

variable (spawn : ο → τ) (act : σ → τ → ι → Option (σ × τ))

def step (p : Pool σ τ) (e : Event ο ι) : Option (Pool σ τ) :=
  match e with
  | .spawn o => some { p with threads := p.threads ++ [spawn o] }
  | .step i x =>
    p.threads[i]?.bind fun t =>
      (act p.shared t x).map fun r => { shared := r.1, threads := p.threads.set i r.2 }

theorem step_cases {p q : Pool σ τ} {e : Event ο ι} (h : step spawn act p e = some q)
    : (∃ o, e = .spawn o ∧ q = { p with threads := p.threads ++ [spawn o] })
        ∨
      ∃ i x t s t', e = .step i x ∧ p.threads[i]? = some t ∧ act p.shared t x = some (s, t')
        ∧ q = { shared := s, threads := p.threads.set i t' } := by
  cases e with
  | spawn o =>
    left
    refine ⟨o, rfl, ?_⟩
    simpa [step] using h.symm
  | step i x =>
    right
    simp only [step, Option.bind_eq_some_iff, Option.map_eq_some_iff] at h
    obtain ⟨t, ht, ⟨s, t'⟩, hact, rfl⟩ := h
    exact ⟨i, x, t, s, t', rfl, ht, hact, rfl⟩

def sum (f : τ → Nat) (p : Pool σ τ) : Nat := (p.threads.map f).sum

section sum

variable (f : τ → Nat) (p : Pool σ τ)

@[simp]
theorem sum_nil (s : σ) : sum f { shared := s, threads := [] } = 0 := by
  rfl

@[simp]
theorem sum_spawn (s : σ) (t : τ)
    : sum f { shared := s, threads := p.threads ++ [t] } = p.sum f + f t := by
  simp [sum]

theorem sum_set {i : Nat} {t : τ} (h : p.threads[i]? = some t) (s : σ) (t' : τ)
    : sum f { shared := s, threads := p.threads.set i t' } + f t = p.sum f + f t' := by
  unfold sum
  dsimp
  revert h
  generalize p.threads = ts
  intro h
  induction ts generalizing i with
  | nil => cases h
  | cons u ts ih =>
    cases i with
    | zero =>
      cases h
      simp only [List.set_cons_zero, List.map_cons, List.sum_cons]
      omega
    | succ i =>
      have := ih h
      simp only [List.set_cons_succ, List.map_cons, List.sum_cons]
      omega

theorem le_sum {i : Nat} {t : τ} (h : p.threads[i]? = some t) : f t ≤ p.sum f := by
  have hmem : f t ∈ p.threads.map f := by
    apply List.mem_map_of_mem
    exact List.mem_of_getElem? h
  exact List.le_sum_of_mem hmem

theorem add_le_sum {i j : Nat} {t u : τ} (hi : p.threads[i]? = some t)
    (hj : p.threads[j]? = some u) (hne : j ≠ i)
    : f t + f u ≤ p.sum f := by
  unfold sum
  revert hi hj
  generalize p.threads = ts
  intro hi hj
  induction ts generalizing i j with
  | nil => cases hi
  | cons v ts ih =>
    rw [List.map_cons, List.sum_cons]
    cases i with
    | zero =>
      cases j with
      | zero => contradiction
      | succ j =>
        cases hi
        have hu : f u ∈ ts.map f := List.mem_map_of_mem (List.mem_of_getElem? hj)
        have := List.le_sum_of_mem hu
        omega
    | succ i =>
      cases j with
      | zero =>
        cases hj
        have ht : f t ∈ ts.map f := List.mem_map_of_mem (List.mem_of_getElem? hi)
        have := List.le_sum_of_mem ht
        omega
      | succ j =>
        have := ih (by omega) hi hj
        omega

theorem sum_le_sum {g : τ → Nat} {p : Pool σ τ} (h : ∀ t ∈ p.threads, f t ≤ g t) : p.sum f ≤ p.sum g := by
  unfold sum
  apply List.sum_le_sum
  exact h

theorem sum_eq_zero (h : ∀ t ∈ p.threads, f t = 0) : p.sum f = 0 := by
  unfold sum
  rw [List.sum_eq_zero_iff_forall_eq_nat]
  intro n hn
  obtain ⟨t, ht, rfl⟩ := List.mem_map.mp hn
  exact h t ht

end sum

theorem getElem?_set_cases {ts : List τ} {i j : Nat} {t' u : τ} (h : (ts.set i t')[j]? = some u)
    : j = i ∧ u = t' ∨ j ≠ i ∧ ts[j]? = some u := by
  by_cases hj : i = j
  . subst hj
    rw [List.getElem?_set_self'] at h
    cases hlt : ts[i]? with
    | none => simp [hlt] at h
    | some t =>
      simp [hlt] at h
      exact .inl ⟨rfl, h.symm⟩
  . rw [List.getElem?_set_ne hj] at h
    exact .inr ⟨fun h => hj h.symm, h⟩

theorem getElem?_concat_cases {ts : List τ} {j : Nat} {t' u : τ} (h : (ts ++ [t'])[j]? = some u)
    : u = t' ∨ ts[j]? = some u := by
  rw [List.getElem?_append] at h
  split at h
  . right
    assumption
  . rw [List.getElem?_singleton] at h
    split at h
    . cases h
      left
      rfl
    . cases h

theorem getElem?_concat_eq_some {ts : List τ} {j : Nat} {t' u : τ}
    : (ts ++ [t'])[j]? = some u ↔ ts[j]? = some u ∨ j = ts.length ∧ u = t' := by
  rw [List.getElem?_append]
  split
  . next hlt =>
    simp [Nat.ne_of_lt hlt]
  . next hle =>
    have hnone : ts[j]? = none := List.getElem?_eq_none (by omega)
    rw [List.getElem?_singleton, hnone]
    split
    . next hzero =>
      have hlast : j = ts.length := by omega
      simp [hlast, eq_comm]
    . next hzero =>
      have hlast : j ≠ ts.length := by omega
      simp [hlast]

theorem exists_concat {P : τ → Prop} {ts : List τ} {t' : τ} (ht' : ¬P t') (j : Nat)
    : (∃ u, (ts ++ [t'])[j]? = some u ∧ P u) ↔ ∃ u, ts[j]? = some u ∧ P u := by
  simp only [getElem?_concat_eq_some]
  constructor
  . rintro ⟨u, hu | ⟨-, rfl⟩, hP⟩
    . exact ⟨u, hu, hP⟩
    . contradiction
  . rintro ⟨u, hu, hP⟩
    exact ⟨u, .inl hu, hP⟩

theorem exists_set {P : τ → Prop} {ts : List τ} {i : Nat} {t : τ} (hi : ts[i]? = some t) (t' : τ) (j : Nat)
    : (∃ u, (ts.set i t')[j]? = some u ∧ P u) ↔ j = i ∧ P t' ∨ j ≠ i ∧ ∃ u, ts[j]? = some u ∧ P u := by
  have hlt := (List.getElem?_eq_some_iff.mp hi).1
  by_cases hj : j = i
  . subst hj
    simp [List.getElem?_set_self hlt]
  . simp [List.getElem?_set_ne (Ne.symm hj), hj]

theorem forall_set {P : τ → Prop} {ts : List τ} {i : Nat} {t' : τ} (ht' : P t')
    (hothers : ∀ (j : Nat) u, j ≠ i → ts[j]? = some u → P u)
    : ∀ (j : Nat) u, (ts.set i t')[j]? = some u → P u := by
  intro j u hu
  rcases getElem?_set_cases hu with ⟨-, rfl⟩ | ⟨hne, hold⟩
  . assumption
  . apply hothers j u hne hold

theorem forall_concat {P : τ → Prop} {ts : List τ} {t' : τ} (ht' : P t')
    (hold : ∀ (j : Nat) u, ts[j]? = some u → P u)
    : ∀ (j : Nat) u, (ts ++ [t'])[j]? = some u → P u := by
  intro j u hu
  rcases getElem?_concat_cases hu with rfl | hmem
  . assumption
  . apply hold j u hmem

theorem forall_step {P : τ → Prop} (hspawn : ∀ o, P (spawn o))
    (hact : ∀ s t x s' t', P t → act s t x = some (s', t') → P t')
    {p q : Pool σ τ} {e : Event ο ι} (h : ∀ (j : Nat) t, p.threads[j]? = some t → P t)
    (hstep : step spawn act p e = some q)
    : ∀ (j : Nat) t, q.threads[j]? = some t → P t := by
  obtain ⟨o, rfl, rfl⟩ | ⟨i, x, t, s, t', rfl, ht, hact', rfl⟩ := step_cases spawn act hstep
  . exact forall_concat (hspawn o) h
  . apply forall_set
    . exact hact _ _ _ _ _ (h i t ht) hact'
    . intro j u _ hu
      exact h j u hu

theorem filterMap_set {α β : Type} (f : α → Option β) {l : List α} {i : Nat} {a b : α} (hi : l[i]? = some a)
    (ha : f a = none)
    : ((l.set i b).filterMap f).Perm ((f b).toList ++ l.filterMap f) := by
  induction l generalizing i with
  | nil => cases hi
  | cons c l ih =>
    cases i with
    | zero =>
      cases hi
      rw [List.set_cons_zero, List.filterMap_cons, List.filterMap_cons, ha]
      cases f b with
      | none => exact .refl _
      | some y => exact .refl _
    | succ i =>
      rw [List.getElem?_cons_succ] at hi
      rw [List.set_cons_succ, List.filterMap_cons, List.filterMap_cons]
      cases f c with
      | none => exact ih hi
      | some y => exact ((ih hi).cons y).trans List.perm_middle.symm

section committed

variable {spawn act} {C : τ → Prop} {K : σ → σ → Prop} {p q : Pool σ τ}

theorem committed_of_run (hkeep : ∀ s t x s' t', C t → act s t x = some (s', t') → C t')
    {es : List (Event ο ι)} (hrun : Machine.run (step spawn act) p es = some q) {i : Nat}
    (h : ∃ t, p.threads[i]? = some t ∧ C t)
    : ∃ t, q.threads[i]? = some t ∧ C t := by
  apply Machine.inv_of_run_all (I := fun p => ∃ t, p.threads[i]? = some t ∧ C t) _ h hrun
  intro p e q h hstep
  rcases h with ⟨u, hu, hC⟩
  have hlt := (List.getElem?_eq_some_iff.mp hu).1
  rcases step_cases spawn act hstep with ⟨o, rfl, rfl⟩ | ⟨j, x, t, s, t', rfl, ht, hact, rfl⟩
  . refine ⟨u, ?_, hC⟩
    dsimp
    rw [List.getElem?_append_left hlt]
    assumption
  . by_cases hij : j = i
    . subst hij
      rw [hu] at ht
      cases ht
      exact ⟨t', by simp [hlt], hkeep _ _ _ _ _ hC hact⟩
    . refine ⟨u, ?_, hC⟩
      dsimp
      rw [List.getElem?_set_ne hij]
      assumption

theorem along_of_not_committed (hkeep : ∀ s t x s' t', C t → act s t x = some (s', t') → C t')
    (hact : ∀ s t x s' t', act s t x = some (s', t') → C t' ∨ K s s')
    {es : List (Event ο ι)} (hrun : Machine.run (step spawn act) p es = some q) {i : Nat} {t : τ}
    (hi : q.threads[i]? = some t) (hnot : ¬C t)
    : Machine.Along (step spawn act) (fun p e q => ∀ x, e = .step i x → K p.shared q.shared) p es := by
  induction es generalizing p with
  | nil => trivial
  | cons e es ih =>
    intro r hr
    have hrest : Machine.run (step spawn act) r es = some q := by
      rw [Machine.run_cons, hr] at hrun
      assumption
    refine ⟨?_, ih hrest⟩
    intro x hx
    subst hx
    rcases step_cases spawn act hr with ⟨o, heq, -⟩ | ⟨j, y, u, s, u', heq, hu, hact', rfl⟩
    . cases heq
    . cases heq
      cases hact _ _ _ _ _ hact' with
      | inr hK => assumption
      | inl hC =>
        exfalso
        have hlt := (List.getElem?_eq_some_iff.mp hu).1
        rcases committed_of_run hkeep hrest (i := i) ⟨u', by simp [hlt], hC⟩ with ⟨t', ht', hC'⟩
        rw [hi] at ht'
        cases ht'
        exact hnot hC'

end committed

end Pool
