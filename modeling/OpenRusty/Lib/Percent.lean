import Mathlib.Data.List.Basic

/-!
This module contains the percent encoding of bytes in forms: `+` for a blank, and `%` with two hexadecimal
digits for any byte. A text may spell a value in many ways, every reading of it gives the value back; what
is no spelling is passed through. In the segments of a path `+` stands for itself.
-/

namespace Percent

def plus : UInt8 := 0x2b

def blank : UInt8 := 0x20

def percent : UInt8 := 0x25

def hexVal (b : UInt8) : Option UInt8 :=
  if 0x30 ≤ b ∧ b ≤ 0x39 then
    some (b - 0x30)
  else if 0x61 ≤ b ∧ b ≤ 0x66 then
    some (b - 0x61 + 10)
  else if 0x41 ≤ b ∧ b ≤ 0x46 then
    some (b - 0x41 + 10)
  else
    none

def escaped (rest : List UInt8) : Option (UInt8 × List UInt8) :=
  match rest with
  | h :: l :: rest =>
    match hexVal h, hexVal l with
    | some hi, some lo => some (hi <<< 4 ||| lo, rest)
    | _, _ => none
  | _ => none

theorem length_of_escaped {rest rest' : List UInt8} {v : UInt8} (h : escaped rest = some (v, rest'))
    : rest'.length < rest.length := by
  unfold escaped at h
  split at h
  . split at h
    . cases h
      simp only [List.length_cons]
      omega
    . cases h
  . cases h

def decode (bytes : List UInt8) : List UInt8 :=
  match bytes with
  | [] => []
  | b :: rest =>
    if b = plus then
      blank :: decode rest
    else if b = percent then
      match _h : escaped rest with
      | some (v, rest') => v :: decode rest'
      | none => percent :: decode rest
    else
      b :: decode rest
termination_by bytes.length
decreasing_by
  . simp
  . have := length_of_escaped _h
    simp only [List.length_cons]
    omega
  . simp
  . simp

inductive Spells : List UInt8 → List UInt8 → Prop where
  | nil : Spells [] []
  | blank {raw value : List UInt8} (h : Spells raw value) : Spells (plus :: raw) (Percent.blank :: value)
  | plain {b : UInt8} {raw value : List UInt8} (hplus : b ≠ plus) (hpercent : b ≠ percent) (h : Spells raw value)
    : Spells (b :: raw) (b :: value)
  | escape {x y hi lo : UInt8} {raw value : List UInt8} (hx : hexVal x = some hi) (hy : hexVal y = some lo)
      (h : Spells raw value)
    : Spells (percent :: x :: y :: raw) ((hi <<< 4 ||| lo) :: value)

theorem decode_cons_of_plain {b : UInt8} (hplus : b ≠ plus) (hpercent : b ≠ percent) (rest : List UInt8)
    : decode (b :: rest) = b :: decode rest := by
  rw [decode, if_neg hplus, if_neg hpercent]

theorem decode_escape {x y hi lo : UInt8} (hx : hexVal x = some hi) (hy : hexVal y = some lo) (rest : List UInt8)
    : decode (percent :: x :: y :: rest) = (hi <<< 4 ||| lo) :: decode rest := by
  have hescaped : escaped (x :: y :: rest) = some (hi <<< 4 ||| lo, rest) := by
    simp [escaped, hx, hy]
  rw [decode, if_neg (by decide), if_pos rfl]
  split
  . next v rest' heq =>
    rw [hescaped] at heq
    cases heq
    rfl
  . next heq =>
    rw [hescaped] at heq
    cases heq

theorem decode_of_spells {raw value : List UInt8} (h : Spells raw value) : decode raw = value := by
  induction h with
  | nil => simp [decode]
  | blank _ ih => rw [decode, if_pos rfl, ih]
  | plain hplus hpercent _ ih => rw [decode_cons_of_plain hplus hpercent, ih]
  | escape hx hy _ ih => rw [decode_escape hx hy, ih]

def unescape (bytes : List UInt8) : List UInt8 :=
  match bytes with
  | [] => []
  | [b] => [b]
  | [b, c] => [b, c]
  | b :: x :: y :: rest =>
    if b = percent then
      match hexVal x, hexVal y with
      | some hi, some lo => (hi <<< 4 ||| lo) :: unescape rest
      | _, _ => b :: unescape (x :: y :: rest)
    else
      b :: unescape (x :: y :: rest)

end Percent
