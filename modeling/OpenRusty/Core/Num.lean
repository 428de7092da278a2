import OpenRusty.Core.Text

/-!
This module contains the reading of numbers and lists from text: unsigned integers of `w` bits in
decimal, and the parts of a text between separators.
-/

namespace OpenRusty

/-- A plus sign is allowed in front of the digits. -/
def digitsOf (s : String) : List Char :=
  match s.toList with
  | '+' :: digits => digits
  | digits => digits

def parseUnsigned (w : Nat) (s : String) : Option Nat :=
  if (digitsOf s).isEmpty || !(digitsOf s).all Char.isDigit then
    none
  else
    let n := Nat.ofDigitChars 10 (digitsOf s) 0
    if n < 2 ^ w then some n else none

def parseU16 (s : String) : Option UInt16 := (parseUnsigned 16 s).map UInt16.ofNat

def parseU32 (s : String) : Option UInt32 := (parseUnsigned 32 s).map UInt32.ofNat

def splitChar (sep : Char) (s : String) : List String := (s.toList.splitOn sep).map String.ofList

def splitOnce (sep : Char) (s : String) : Option (String × String) :=
  match s.toList.dropWhile (· != sep) with
  | [] => none
  | _ :: rest => some (String.ofList (s.toList.takeWhile (· != sep)), String.ofList rest)

theorem toList_toString (n : Nat) : (toString n).toList = Nat.toDigits 10 n := by
  simp [toString, Nat.repr]

theorem toString_injective {m n : Nat} (h : (toString m).toList = (toString n).toList) : m = n := by
  rw [toList_toString, toList_toString] at h
  have := congrArg (Nat.ofDigitChars 10 · 0) h
  simpa using this

theorem isDigit_of_mem_toString {n : Nat} {c : Char} (h : c ∈ (toString n).toList) : c.isDigit = true := by
  rw [toList_toString] at h
  exact Nat.isDigit_of_mem_toDigits (by decide) (by decide) h

theorem digit_or_plus_of_parseUnsigned {w n : Nat} {s : String} (h : parseUnsigned w s = some n)
    : ∀ c ∈ s.toList, c.isDigit = true ∨ c = '+' := by
  have hall : (digitsOf s).all Char.isDigit = true := by
    unfold parseUnsigned at h
    split at h
    . cases h
    . next hnot =>
      rw [Bool.or_eq_true, not_or, Bool.not_eq_true', Bool.not_eq_false] at hnot
      exact hnot.2
  rw [List.all_eq_true] at hall
  unfold digitsOf at hall
  intro c hc
  split at hall
  . next digits hs =>
    rw [hs] at hc
    rcases List.mem_cons.mp hc with rfl | hmem
    . exact .inr rfl
    . exact .inl (hall c hmem)
  . exact .inl (hall c hc)

theorem append_of_splitOnce {sep : Char} {s a b : String} (h : splitOnce sep s = some (a, b))
    : s.toList = a.toList ++ sep :: b.toList := by
  unfold splitOnce at h
  split at h
  . cases h
  . next c rest hdrop =>
    cases h
    have hc : c = sep := by
      have := List.head_dropWhile_not (· != sep) (l := s.toList) (by rw [hdrop]; simp)
      simpa [hdrop] using this
    subst hc
    rw [String.toList_ofList, String.toList_ofList, ← hdrop]
    exact List.takeWhile_append_dropWhile.symm

theorem digitsOf_toString (n : Nat) : digitsOf (toString n) = Nat.toDigits 10 n := by
  rw [← toList_toString]
  unfold digitsOf
  split
  . next digits heq =>
    have := isDigit_of_mem_toString (n := n) (c := '+') (by rw [heq]; simp)
    cases this
  . rfl

theorem parseUnsigned_toString {w n : Nat} (h : n < 2 ^ w) : parseUnsigned w (toString n) = some n := by
  have hempty : (Nat.toDigits 10 n).isEmpty = false := by
    rw [List.isEmpty_eq_false_iff]
    exact Nat.toDigits_ne_nil
  have hall : (Nat.toDigits 10 n).all Char.isDigit = true := by
    rw [List.all_eq_true]
    intro c hc
    exact Nat.isDigit_of_mem_toDigits (by decide) (by decide) hc
  unfold parseUnsigned
  rw [digitsOf_toString, hempty, hall]
  simp [h]

theorem parseU16_toString (n : UInt16) : parseU16 (toString n) = some n := by
  have h : parseUnsigned 16 (toString n) = some n.toNat := parseUnsigned_toString n.toNat_lt
  rw [parseU16, h, Option.map_some, UInt16.ofNat_toNat]

theorem parseU32_toString (n : UInt32) : parseU32 (toString n) = some n := by
  have h : parseUnsigned 32 (toString n) = some n.toNat := parseUnsigned_toString n.toNat_lt
  rw [parseU32, h, Option.map_some, UInt32.ofNat_toNat]

theorem splitChar_intercalate {sep : Char} {parts : List String} (h : ∀ part ∈ parts, sep ∉ part.toList)
    (hne : parts ≠ [])
    : splitChar sep ((String.singleton sep).intercalate parts) = parts := by
  unfold splitChar
  rw [String.toList_intercalate, String.toList_singleton, List.splitOn_intercalate]
  . simp
  . intro l hl
    rcases List.mem_map.mp hl with ⟨part, hpart, rfl⟩
    exact h part hpart
  . simpa using hne

theorem splitOnce_eq_none {sep : Char} {s : String} (h : sep ∉ s.toList) : splitOnce sep s = none := by
  have hdrop : s.toList.dropWhile (· != sep) = [] := by
    rw [List.dropWhile_eq_nil_iff]
    intro c hc
    rw [bne_iff_ne]
    rintro rfl
    exact h hc
  unfold splitOnce
  rw [hdrop]

end OpenRusty
