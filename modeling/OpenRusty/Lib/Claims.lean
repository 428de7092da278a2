import OpenRusty.Lib.Fallible

/-!
This module contains steps that enter claims on keys into a table, and fail on a key that is claimed with
two values. What such a step does is preserved by folds, so a fold of folds over nested lists of claims
fails exactly if one of its parts is not good or two of its claims disagree, whatever the order is.
-/

namespace Claims

variable {σ α β ε K V : Type}

/-- The table is read by `look`; that `a` claims the key `k` with the value `v` is `claims a k v`. -/
structure Merges (look : σ → K → Option V) (good : α → Prop) (claims : α → K → V → Prop)
    (f : σ → α → Except ε σ)
    : Prop where
  good_of_ok : ∀ {t t' a}, f t a = .ok t' → good a
  look_of_ok : ∀ {t t' a}, f t a = .ok t' → ∀ k v, look t' k = some v ↔ look t k = some v ∨ claims a k v
  conflict : ∀ {t a e}, f t a = .error e → good a →
    ∃ k v w, v ≠ w ∧ (look t k = some v ∨ claims a k v) ∧ claims a k w

namespace Merges

variable {look : σ → K → Option V} {good : α → Prop} {claims : α → K → V → Prop} {f : σ → α → Except ε σ}

theorem foldlM (h : Merges look good claims f)
    : Merges look (fun l => ∀ a ∈ l, good a) (fun l k v => ∃ a ∈ l, claims a k v)
        (fun t (l : List α) => l.foldlM f t) := by
  have hcons : ∀ (t : σ) (a : α) (l : List α),
      (a :: l).foldlM f t = (match f t a with | .ok t => l.foldlM f t | .error e => .error e) := by
    intro t a l
    rw [List.foldlM_cons]
    cases f t a with
    | error e => rfl
    | ok t => rfl
  constructor
  . intro t t' l hok
    induction l generalizing t with
    | nil => simp
    | cons a l ih =>
      rw [hcons] at hok
      cases hfa : f t a with
      | error e =>
        rw [hfa] at hok
        cases hok
      | ok u =>
        rw [hfa] at hok
        intro b hb
        rcases List.mem_cons.mp hb with rfl | hb
        . exact h.good_of_ok hfa
        . exact ih hok b hb
  . intro t t' l hok k v
    induction l generalizing t with
    | nil =>
      cases hok
      simp
    | cons a l ih =>
      rw [hcons] at hok
      cases hfa : f t a with
      | error e =>
        rw [hfa] at hok
        cases hok
      | ok u =>
        rw [hfa] at hok
        rw [ih hok, h.look_of_ok hfa, or_assoc]
        simp
  . intro t l e herror hgood
    induction l generalizing t with
    | nil => cases herror
    | cons a l ih =>
      rw [hcons] at herror
      have hmem : a ∈ a :: l := by simp
      cases hfa : f t a with
      | error e' =>
        obtain ⟨k, v, w, hne, hv, hw⟩ := h.conflict hfa (hgood a hmem)
        exact ⟨k, v, w, hne, hv.imp_right fun hv => ⟨a, hmem, hv⟩, a, hmem, hw⟩
      | ok u =>
        rw [hfa] at herror
        obtain ⟨k, v, w, hne, hv, b, hb, hw⟩ := ih herror fun b hb => hgood b (List.mem_cons_of_mem _ hb)
        refine ⟨k, v, w, hne, ?_, b, List.mem_cons_of_mem _ hb, hw⟩
        rw [h.look_of_ok hfa, or_assoc] at hv
        -- The other claim comes from the table, from `a` or from behind it.
        rcases hv with hv | hv | ⟨c, hc, hv⟩
        . exact .inl hv
        . exact .inr ⟨a, hmem, hv⟩
        . exact .inr ⟨c, List.mem_cons_of_mem _ hc, hv⟩

variable (h : Merges look good claims f) {t : σ} {a : α} (hempty : ∀ k, look t k = none)

include h hempty

theorem look_iff {t' : σ} (hok : f t a = .ok t') (k : K) (v : V) : look t' k = some v ↔ claims a k v := by
  rw [h.look_of_ok hok, hempty]
  simp

theorem isOk_iff : (∃ t', f t a = .ok t') ↔ good a ∧ ∀ k v w, claims a k v → claims a k w → v = w := by
  constructor
  . rintro ⟨t', hok⟩
    refine ⟨h.good_of_ok hok, ?_⟩
    intro k v w hv hw
    have hlook := (h.look_iff hempty hok k v).mpr hv
    rw [(h.look_iff hempty hok k w).mpr hw] at hlook
    cases hlook
    rfl
  . rintro ⟨hgood, hagree⟩
    cases hfa : f t a with
    | ok t' => exact ⟨t', rfl⟩
    | error e =>
      obtain ⟨k, v, w, hne, hv, hw⟩ := h.conflict hfa hgood
      rw [hempty] at hv
      rcases hv with hv | hv
      . cases hv
      . exact absurd (hagree k v w hv hw) hne

end Merges

end Claims
