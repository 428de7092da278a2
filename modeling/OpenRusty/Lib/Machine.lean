/-!
This module contains the theory of runs of a partial transition function: `step s e = none` says
that the event `e` is not possible in the state `s`. A run is guarded if every event on the way
meets a condition on the state it is taken in; an invariant that every guarded step preserves holds
in every state a guarded run reaches. A relation holds along a run if every step on the way is in it.
-/

namespace Machine

variable {σ ε : Type} (step : σ → ε → Option σ)

def run (s : σ) (es : List ε) : Option σ :=
  match es with
  | [] => some s
  | e :: es => (step s e).bind fun t => run t es

def Guarded (ok : σ → ε → Prop) (s : σ) (es : List ε) : Prop :=
  match es with
  | [] => True
  | e :: es => ok s e ∧ ∀ t, step s e = some t → Guarded ok t es

instance decidableGuarded (ok : σ → ε → Prop) [∀ s e, Decidable (ok s e)] (s : σ) (es : List ε)
    : Decidable (Guarded step ok s es) :=
  match es with
  | [] => isTrue trivial
  | e :: es =>
    match h : step s e with
    | none => decidable_of_iff (ok s e) (by simp [Guarded, h])
    | some t =>
      have := decidableGuarded ok t es
      decidable_of_iff (ok s e ∧ Guarded step ok t es) (by simp [Guarded, h])

def Along (P : σ → ε → σ → Prop) (s : σ) (es : List ε) : Prop :=
  match es with
  | [] => True
  | e :: es => ∀ t, step s e = some t → P s e t ∧ Along P t es

@[simp]
theorem run_nil (s : σ) : run step s [] = some s := by
  rfl

theorem run_cons (s : σ) (e : ε) (es : List ε)
    : run step s (e :: es) = (step s e).bind fun t => run step t es := by
  rfl

theorem run_cons_eq_some {s t : σ} {e : ε} {es : List ε}
    : run step s (e :: es) = some t ↔ ∃ u, step s e = some u ∧ run step u es = some t := by
  rw [run_cons, Option.bind_eq_some_iff]

theorem run_of_step {s t : σ} {e : ε} (h : step s e = some t) (es : List ε)
    : run step s (e :: es) = run step t es := by
  rw [run_cons, h, Option.bind_some]

theorem run_concat (s : σ) (es : List ε) (e : ε)
    : run step s (es ++ [e]) = (run step s es).bind fun t => step t e := by
  induction es generalizing s with
  | nil =>
    rw [List.nil_append, run_cons, run_nil, Option.bind_some]
    cases step s e <;> rfl
  | cons e' es ih =>
    rw [List.cons_append, run_cons, run_cons]
    cases step s e' with
    | none => rfl
    | some t => exact ih t

theorem run_append (s : σ) (es fs : List ε)
    : run step s (es ++ fs) = (run step s es).bind fun t => run step t fs := by
  induction es generalizing s with
  | nil => rfl
  | cons e es ih =>
    rw [List.cons_append, run_cons, run_cons]
    cases step s e with
    | none => rfl
    | some t => exact ih t

variable {step}

theorem guarded_of_forall {ok : ε → Prop} {es : List ε} (h : ∀ e ∈ es, ok e) (s : σ)
    : Guarded step (fun _ e => ok e) s es := by
  induction es generalizing s with
  | nil => trivial
  | cons e es ih =>
    refine ⟨h e (by simp), ?_⟩
    intro t _
    apply ih
    intro e' he'
    apply h
    simp [he']

theorem inv_of_run {ok : σ → ε → Prop} {I : σ → Prop}
    (hstep : ∀ s e t, I s → ok s e → step s e = some t → I t)
    {s t : σ} {es : List ε} (hs : I s) (hok : Guarded step ok s es) (hrun : run step s es = some t)
    : I t := by
  induction es generalizing s with
  | nil =>
    cases hrun
    exact hs
  | cons e es ih =>
    obtain ⟨u, hu, hrun⟩ := (run_cons_eq_some step).mp hrun
    exact ih (hstep s e u hs hok.1 hu) (hok.2 u hu) hrun

theorem inv_of_run_all {I : σ → Prop}
    (hstep : ∀ s e t, I s → step s e = some t → I t)
    {s t : σ} {es : List ε} (hs : I s) (hrun : run step s es = some t)
    : I t := by
  induction es generalizing s with
  | nil =>
    cases hrun
    exact hs
  | cons e es ih =>
    obtain ⟨u, hu, hrun⟩ := (run_cons_eq_some step).mp hrun
    exact ih (hstep s e u hs hu) hrun

theorem inv_of_history {I : List ε → σ → Prop}
    (hstep : ∀ es s e t, I es s → step s e = some t → I (es ++ [e]) t)
    {before es : List ε} {s t : σ} (hs : I before s) (hrun : run step s es = some t)
    : I (before ++ es) t := by
  induction es generalizing before s with
  | nil =>
    cases hrun
    rwa [List.append_nil]
  | cons e es ih =>
    obtain ⟨u, hu, hrun⟩ := (run_cons_eq_some step).mp hrun
    rw [List.append_cons]
    exact ih (hstep before s e u hs hu) hrun

theorem Guarded.of_append {ok : σ → ε → Prop} {s : σ} {es fs : List ε}
    (h : Guarded step ok s (es ++ fs))
    : Guarded step ok s es ∧ ∀ t, run step s es = some t → Guarded step ok t fs := by
  induction es generalizing s with
  | nil =>
    refine ⟨trivial, ?_⟩
    intro t ht
    cases ht
    exact h
  | cons e es ih =>
    refine ⟨⟨h.1, fun u hu => (ih (h.2 u hu)).1⟩, ?_⟩
    intro t ht
    rcases (run_cons_eq_some step).mp ht with ⟨u, hu, hrest⟩
    exact (ih (h.2 u hu)).2 t hrest

theorem Guarded.of_inv {ok ok' : σ → ε → Prop} {I : σ → Prop}
    (hstep : ∀ s e t, I s → ok s e → step s e = some t → I t)
    (hok' : ∀ s e, I s → ok s e → ok' s e)
    {s : σ} {es : List ε} (hs : I s) (hok : Guarded step ok s es)
    : Guarded step ok' s es := by
  induction es generalizing s with
  | nil => trivial
  | cons e es ih =>
    refine ⟨hok' s e hs hok.1, ?_⟩
    intro t ht
    exact ih (hstep s e t hs hok.1 ht) (hok.2 t ht)

theorem along_of_guarded {ok : σ → ε → Prop} {P : σ → ε → σ → Prop}
    (hstep : ∀ s e t, ok s e → step s e = some t → P s e t)
    {s : σ} {es : List ε} (hok : Guarded step ok s es)
    : Along step P s es := by
  induction es generalizing s with
  | nil => trivial
  | cons e es ih =>
    intro t ht
    exact ⟨hstep s e t hok.1 ht, ih (hok.2 t ht)⟩

theorem along_of_step {P : σ → ε → σ → Prop} (hstep : ∀ s e t, step s e = some t → P s e t)
    (s : σ) (es : List ε)
    : Along step P s es := by
  induction es generalizing s with
  | nil => trivial
  | cons e es ih =>
    intro t ht
    exact ⟨hstep s e t ht, ih t⟩

theorem Along.of_run {P : σ → ε → σ → Prop} {s t u : σ} {es fs : List ε} {e : ε}
    (h : Along step P s (es ++ e :: fs)) (hrun : run step s es = some t) (hstep : step t e = some u)
    : P t e u := by
  induction es generalizing s with
  | nil =>
    cases hrun
    exact (h u hstep).1
  | cons e' es ih =>
    obtain ⟨v, hv, hrun⟩ := (run_cons_eq_some step).mp hrun
    exact ih (h v hv).2 hrun

theorem Along.related {P : σ → ε → σ → Prop} {R : σ → σ → Prop} (hrefl : ∀ s, R s s)
    (htrans : ∀ s t u, R s t → R t u → R s u) {es : List ε}
    (hP : ∀ e ∈ es, ∀ s t, P s e t → R s t) {s t : σ} (h : Along step P s es)
    (hrun : run step s es = some t)
    : R s t := by
  induction es generalizing s with
  | nil =>
    cases hrun
    apply hrefl
  | cons e es ih =>
    rcases (run_cons_eq_some step).mp hrun with ⟨u, hu, hrest⟩
    apply htrans s u t
    . apply hP e (by simp)
      exact (h u hu).1
    . apply ih
      . intro e' he'
        apply hP
        simp [he']
      . exact (h u hu).2
      . assumption

end Machine
