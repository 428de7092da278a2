import Mathlib.Algebra.GroupWithZero.Nat
import Mathlib.Data.List.DropRight

/-!
This module contains the string functions of the standard library that the proxy relies on: white
space, control characters, trimming and the case-insensitive comparison of ASCII text. All of them work
on the characters of a string, `len` counts the bytes of its encoding.
-/

namespace OpenRusty

def isWhiteSpace (c : Char) : Bool :=
  let n := c.toNat
  decide (9 ≤ n ∧ n ≤ 13 ∨ n = 0x20 ∨ n = 0x85 ∨ n = 0xa0 ∨ n = 0x1680 ∨ 0x2000 ≤ n ∧ n ≤ 0x200a
    ∨ n = 0x2028 ∨ n = 0x2029 ∨ n = 0x202f ∨ n = 0x205f ∨ n = 0x3000)

def isControl (c : Char) : Bool :=
  let n := c.toNat
  decide (n < 0x20 ∨ 0x7f ≤ n ∧ n ≤ 0x9f)

def trim (s : String) : String :=
  String.ofList ((s.toList.dropWhile isWhiteSpace).rdropWhile isWhiteSpace)

def isBlank (s : String) : Bool := (trim s).toList.isEmpty

def toAsciiLowercase (s : String) : String := String.ofList (s.toList.map Char.toLower)

def toAsciiUppercase (s : String) : String := String.ofList (s.toList.map Char.toUpper)

def eqIgnoreAsciiCase (a b : String) : Bool := a.toList.map Char.toLower == b.toList.map Char.toLower

def startsWith (s p : String) : Bool := p.toList.isPrefixOf s.toList

def len (s : String) : Nat := (s.toList.map Char.utf8Size).sum

@[simp]
theorem toList_toAsciiLowercase (s : String)
    : (toAsciiLowercase s).toList = s.toList.map Char.toLower := by
  simp [toAsciiLowercase]

theorem eqIgnoreAsciiCase_iff {a b : String}
    : eqIgnoreAsciiCase a b = true ↔ toAsciiLowercase a = toAsciiLowercase b := by
  rw [← String.toList_inj, toList_toAsciiLowercase, toList_toAsciiLowercase]
  apply beq_iff_eq

theorem startsWith_iff {s p : String} : startsWith s p = true ↔ p.toList <+: s.toList := by
  simp [startsWith]

theorem isBlank_iff {s : String} : isBlank s = true ↔ ∀ c ∈ s.toList, isWhiteSpace c = true := by
  unfold isBlank trim
  rw [String.toList_ofList, List.isEmpty_iff, List.rdropWhile_eq_nil_iff]
  constructor
  . intro h
    rw [← List.dropWhile_eq_nil_iff]
    -- The first character that is left over would be white space.
    cases hdrop : s.toList.dropWhile isWhiteSpace with
    | nil => rfl
    | cons c l =>
      have hspace := h c (by simp [hdrop])
      have hnot := List.head_dropWhile_not isWhiteSpace (l := s.toList) (by simp [hdrop])
      simp [hdrop, hspace] at hnot
  . intro h c hc
    exact h c ((List.dropWhile_suffix isWhiteSpace).mem hc)

theorem trim_eq_self {s : String} (h : ∀ c ∈ s.toList, isWhiteSpace c = false) : trim s = s := by
  have hdrop : s.toList.dropWhile isWhiteSpace = s.toList := by
    rw [List.dropWhile_eq_self_iff]
    intro hlt
    simpa using h _ (List.getElem_mem hlt)
  unfold trim
  rw [hdrop, List.rdropWhile_eq_self_iff.mpr]
  . simp
  . intro hne
    simpa using h _ (List.getLast_mem hne)

theorem toLower_of_isWhiteSpace {c : Char} (h : isWhiteSpace c = true) : c.toLower = c := by
  unfold Char.toLower
  rw [dif_neg]
  intro hupper
  simp only [isWhiteSpace, decide_eq_true_eq, Char.toNat] at h
  have hlow : 65 ≤ c.val.toNat := hupper.1
  have hhigh : c.val.toNat ≤ 90 := hupper.2
  omega

theorem trim_eq_self_of_lowercase {s : String}
    (h : ∀ c ∈ (toAsciiLowercase s).toList, isWhiteSpace c = false)
    : trim s = s := by
  apply trim_eq_self
  intro c hc
  rw [Bool.eq_false_iff]
  intro hspace
  have hmem : c ∈ (toAsciiLowercase s).toList := by
    rw [toList_toAsciiLowercase, List.mem_map]
    exact ⟨c, hc, toLower_of_isWhiteSpace hspace⟩
  rw [h c hmem] at hspace
  cases hspace

theorem eq_of_startsWith {s p q : String} (hp : startsWith s p = true) (hq : startsWith s q = true)
    (hlen : len p = len q)
    : p = q := by
  rw [startsWith_iff] at hp hq
  have hfree {a b c : List Char} (habc : a ++ c = b)
      (hsum : (a.map Char.utf8Size).sum = (b.map Char.utf8Size).sum)
      : a = b := by
    subst habc
    cases c with
    | nil => simp
    | cons x c =>
      have := x.utf8Size_pos
      simp only [List.map_append, List.map_cons, List.sum_append, List.sum_cons] at hsum
      omega
  apply String.toList_inj.mp
  obtain ⟨c, hc⟩ | ⟨c, hc⟩ := List.prefix_or_prefix_of_prefix hp hq
  . exact hfree hc hlen
  . exact (hfree hc hlen.symm).symm

section textOf

def TextOf (p : Char → Bool) (s : String) : Prop := ∀ c ∈ s.toList, p c = true

instance (p : Char → Bool) (s : String) : Decidable (TextOf p s) :=
  List.decidableBAll (fun c => p c = true) s.toList

variable {p : Char → Bool}

theorem TextOf.append {a b : String} (ha : TextOf p a) (hb : TextOf p b) : TextOf p (a ++ b) := by
  intro c hc
  rw [String.toList_append] at hc
  rcases List.mem_append.mp hc with hc | hc
  . exact ha c hc
  . exact hb c hc

theorem TextOf.intercalate {sep : String} {parts : List String} (hsep : TextOf p sep)
    (hparts : ∀ part ∈ parts, TextOf p part)
    : TextOf p (sep.intercalate parts) := by
  induction parts with
  | nil =>
    rw [String.intercalate_nil]
    intro c hc
    simp at hc
  | cons part parts ih =>
    have hpart := hparts part List.mem_cons_self
    have hrest : ∀ part ∈ parts, TextOf p part := by
      intro other hother
      exact hparts other (List.mem_cons_of_mem _ hother)
    cases parts with
    | nil =>
      rw [String.intercalate_singleton]
      exact hpart
    | cons next parts =>
      rw [String.intercalate_cons_cons]
      exact (hpart.append hsep).append (ih hrest)

end textOf

end OpenRusty
