/-!
This module contains the theory of computations that can fail: what is known about the steps of a
computation that did not fail, what is in the result of a map over a list, and when the checks of a
list pass, one element after the other, each with its index and possibly with a key that no element
before it has.
-/

namespace Except

variable {α β ε : Type} {f : α → Except ε β}

theorem mapM_cons_eq_ok {a : α} {l : List α} {ys : List β}
    : (a :: l).mapM f = .ok ys ↔ ∃ b bs, f a = .ok b ∧ l.mapM f = .ok bs ∧ ys = b :: bs := by
  rw [List.mapM_cons]
  cases hfa : f a with
  | error e => simp [bind, Except.bind]
  | ok b =>
    cases hl : l.mapM f with
    | error e => simp [bind, Except.bind]
    | ok bs =>
      simp only [bind, Except.bind, pure, Except.pure, Except.ok.injEq, exists_and_left,
        exists_eq_left']
      exact eq_comm

theorem mem_of_mapM {l : List α} {ys : List β} (h : l.mapM f = .ok ys) {y : β}
    : y ∈ ys ↔ ∃ x ∈ l, f x = .ok y := by
  induction l generalizing ys with
  | nil =>
    cases h
    simp
  | cons a l ih =>
    obtain ⟨b, bs, hb, hbs, rfl⟩ := mapM_cons_eq_ok.mp h
    simp only [List.mem_cons, ih hbs, exists_eq_or_imp, hb, Except.ok.injEq]
    constructor
    . rintro (rfl | hmem)
      . exact .inl rfl
      . exact .inr hmem
    . rintro (rfl | hmem)
      . exact .inl rfl
      . exact .inr hmem

theorem ok_of_mapM {l : List α} {ys : List β} (h : l.mapM f = .ok ys) {x : α} (hx : x ∈ l)
    : ∃ y, f x = .ok y := by
  induction l generalizing ys with
  | nil => cases hx
  | cons a l ih =>
    obtain ⟨b, bs, hb, hbs, rfl⟩ := mapM_cons_eq_ok.mp h
    cases List.mem_cons.mp hx with
    | inl heq =>
      subst heq
      exact ⟨b, hb⟩
    | inr hmem => exact ih hbs hmem

theorem bind_eq_ok {x : Except ε α} {b : β}
    : (x >>= f) = .ok b ↔ ∃ a, x = .ok a ∧ f a = .ok b := by
  cases x with
  | error e => simp [bind, Except.bind]
  | ok a => simp [bind, Except.bind]

theorem unit_bind_eq_ok {x : Except ε Unit} {y : Except ε β} {b : β}
    : (x >>= fun _ => y) = .ok b ↔ x = .ok () ∧ y = .ok b := by
  cases x with
  | error e => simp [bind, Except.bind]
  | ok a => simp [bind, Except.bind]

def ensure (c : Bool) (e : ε) : Except ε Unit := if c then .ok () else .error e

@[simp]
theorem ensure_eq_ok {c : Bool} {e : ε} : ensure c e = .ok () ↔ c = true := by
  cases c with
  | false => simp [ensure]
  | true => simp [ensure]

section forEach

variable (f : Nat → α → Except ε Unit)

def forEach (i : Nat) (l : List α) : Except ε Unit :=
  match l with
  | [] => .ok ()
  | a :: l => f i a >>= fun _ => forEach (i + 1) l

theorem forEach_eq_ok {i : Nat} {l : List α}
    : forEach f i l = .ok () ↔ ∀ (j : Nat) a, l[j]? = some a → f (i + j) a = .ok () := by
  induction l generalizing i with
  | nil => simp [forEach]
  | cons a l ih =>
    rw [forEach, unit_bind_eq_ok, ih]
    constructor
    . intro h j b hb
      cases j with
      | zero =>
        cases hb
        exact h.1
      | succ j =>
        have := h.2 j b hb
        rwa [Nat.add_right_comm, Nat.add_assoc] at this
    . intro h
      refine ⟨h 0 a rfl, ?_⟩
      intro j b hb
      have := h (j + 1) b hb
      rwa [Nat.add_right_comm, Nat.add_assoc]

end forEach

section forFresh

variable {κ : Type} [DecidableEq κ] (key : α → κ) (before after : α → Except ε Unit) (dup : α → ε)

def forFresh (seen : List κ) (l : List α) : Except ε Unit :=
  match l with
  | [] => .ok ()
  | a :: l =>
    before a >>= fun _ => ensure (!seen.contains (key a)) (dup a) >>= fun _ => after a >>= fun _ =>
      forFresh (key a :: seen) l

theorem forFresh_eq_ok {seen : List κ} {l : List α}
    : forFresh key before after dup seen l = .ok ()
      ↔ (l.map key).Nodup ∧ ∀ a ∈ l, key a ∉ seen ∧ before a = .ok () ∧ after a = .ok () := by
  induction l generalizing seen with
  | nil => simp [forFresh]
  | cons a l ih =>
    simp only [forFresh, unit_bind_eq_ok, ih, ensure_eq_ok, List.map_cons, List.nodup_cons,
      List.mem_map, List.mem_cons]
    grind

end forFresh

theorem map_eq_ok {γ : Type} {g : β → γ} {x : Except ε β} {c : γ}
    : x.map g = .ok c ↔ ∃ b, x = .ok b ∧ g b = c := by
  cases x with
  | error e => simp [Except.map]
  | ok b => simp [Except.map]

theorem map_eq_error {γ : Type} {g : β → γ} {x : Except ε β} {e : ε} : x.map g = .error e ↔ x = .error e := by
  cases x with
  | error e => simp [Except.map]
  | ok b => simp [Except.map]

theorem mapError_eq_ok {ε' : Type} {g : ε → ε'} {x : Except ε β} {b : β} : x.mapError g = .ok b ↔ x = .ok b := by
  cases x with
  | error e =>
    constructor
    . rintro ⟨⟩
    . rintro ⟨⟩
  | ok b =>
    constructor
    . rintro ⟨⟩
      rfl
    . rintro ⟨⟩
      rfl

theorem isOk_iff {x : Except ε Unit} : x.isOk = true ↔ x = .ok () := by
  cases x with
  | error e => simp [Except.isOk, Except.toBool]
  | ok u => simp [Except.isOk, Except.toBool]

theorem map_map {γ δ : Type} {g : β → γ} {k : γ → δ} {x : Except ε β}
    : (x.map g).map k = x.map fun b => k (g b) := by
  cases x with
  | error e => rfl
  | ok b => rfl

end Except
