import Mathlib.Data.Nat.Digits.Defs
import OpenRusty.Core.Context

/-!
This module contains the decimal texts of the scheduler plugin (`choice.rs`): the numbers in its records
and in its settings.
-/

namespace OpenRusty
namespace Scheduler

def checkedU64 (x : Nat) : Option Nat := if x < 2 ^ 64 then some x else none

def isAsciiDigit (b : UInt8) : Bool := decide (0x30 ≤ b ∧ b ≤ 0x39)

def parseAsciiU64 (bytes : Bytes) : Option Nat :=
  if bytes.isEmpty then
    none
  else
    go 0 bytes
where
  go (v : Nat) (bytes : Bytes) : Option Nat :=
    match bytes with
    | [] => some v
    | b :: bytes =>
      if isAsciiDigit b then
        (checkedU64 (v * 10)).bind fun v => (checkedU64 (v + (b.toNat - 0x30))).bind fun v => go v bytes
      else
        none

/-- The digits come from the right into a buffer of 20 bytes, which is enough for 64 bits. -/
def asciiU64 (v : Nat) : Bytes :=
  go 20 v []
where
  go (i v : Nat) (buf : Bytes) : Bytes :=
    match i with
    | 0 => buf
    | i + 1 =>
      let buf := UInt8.ofNat (0x30 + v % 10) :: buf
      if v / 10 = 0 then
        buf
      else
        go i (v / 10) buf

namespace parseAsciiU64

theorem go_append (v : Nat) (xs ys : Bytes) : go v (xs ++ ys) = (go v xs).bind fun w => go w ys := by
  induction xs generalizing v with
  | nil => rfl
  | cons b xs ih =>
    simp only [List.cons_append, go]
    split
    . cases checkedU64 (v * 10) with
      | none => rfl
      | some w =>
        dsimp only [Option.bind_some]
        cases checkedU64 (w + (b.toNat - 0x30)) with
        | none => rfl
        | some w => exact ih w
    . rfl

theorem go_digit {v d : Nat} (hd : d < 10) (h : v * 10 + d < 2 ^ 64)
    : go v [UInt8.ofNat (0x30 + d)] = some (v * 10 + d) := by
  have hnat : (UInt8.ofNat (0x30 + d)).toNat = 0x30 + d := by
    rw [UInt8.toNat_ofNat']
    exact Nat.mod_eq_of_lt (by omega)
  have hdigit : isAsciiDigit (UInt8.ofNat (0x30 + d)) = true := by
    simp only [isAsciiDigit, UInt8.le_iff_toNat_le, hnat, decide_eq_true_eq]
    constructor
    . exact Nat.le_add_right _ _
    . exact Nat.add_le_add_left (Nat.le_of_lt_succ hd) 0x30
  have hsub : 0x30 + d - 0x30 = d := by omega
  unfold go
  rw [if_pos hdigit, hnat, hsub, checkedU64, if_pos (by omega), Option.bind_some, checkedU64, if_pos h]
  rfl

end parseAsciiU64

theorem asciiU64.go_spec {i v : Nat} (hpos : 0 < i) (hfits : v < 10 ^ i) (hword : v < 2 ^ 64) (buf : Bytes)
    : ∃ digits, digits ≠ [] ∧ go i v buf = digits ++ buf ∧ parseAsciiU64.go 0 digits = some v := by
  induction i generalizing v buf with
  | zero => omega
  | succ i ih =>
    have hmod : v % 10 < 10 := Nat.mod_lt v (by decide)
    unfold go
    dsimp only
    split
    . next hlast =>
      refine ⟨[UInt8.ofNat (0x30 + v % 10)], by simp, rfl, ?_⟩
      rw [parseAsciiU64.go_digit hmod (by omega)]
      congr 1
      omega
    . next hmore =>
      have hdiv : v / 10 < 10 ^ i := by
        rw [Nat.pow_succ] at hfits
        omega
      have hpos : 0 < i := by
        cases i with
        | zero => omega
        | succ i => omega
      rcases ih hpos hdiv (by omega) (UInt8.ofNat (0x30 + v % 10) :: buf) with ⟨digits, -, hgo, hparse⟩
      refine ⟨digits ++ [UInt8.ofNat (0x30 + v % 10)], by simp, ?_, ?_⟩
      . rw [hgo, List.append_assoc]
        rfl
      . rw [parseAsciiU64.go_append, hparse, Option.bind_some, parseAsciiU64.go_digit hmod (by omega)]
        congr 1
        omega

theorem parseAsciiU64_asciiU64 {v : Nat} (h : v < 2 ^ 64) : parseAsciiU64 (asciiU64 v) = some v := by
  have hfits : v < 10 ^ 20 := by omega
  rcases asciiU64.go_spec (i := 20) (by decide) hfits h [] with ⟨digits, hne, hgo, hparse⟩
  unfold parseAsciiU64 asciiU64
  rw [hgo, List.append_nil, if_neg (by simpa using hne), hparse]

/-!
What is accepted are digits of a number that fits, with any zeros in front.
-/

def digitOf (b : UInt8) : Nat := b.toNat - 0x30

def decimalValue (bytes : Bytes) : Nat := Nat.ofDigits 10 (bytes.reverse.map digitOf)

theorem decimalValue_cons (b : UInt8) (bytes : Bytes)
    : decimalValue (b :: bytes) = digitOf b * 10 ^ bytes.length + decimalValue bytes := by
  unfold decimalValue
  rw [List.reverse_cons, List.map_append, Nat.ofDigits_append, List.map_singleton, Nat.ofDigits_singleton,
    List.length_map, List.length_reverse]
  ring

theorem checkedU64_eq_some {x y : Nat} : checkedU64 x = some y ↔ x < 2 ^ 64 ∧ x = y := by
  unfold checkedU64
  split
  . next h =>
    rw [Option.some.injEq]
    exact (and_iff_right h).symm
  . next h => exact ⟨nofun, fun hxy => absurd hxy.1 h⟩

theorem parseAsciiU64.go_eq_some {v w : Nat} (hv : v < 2 ^ 64) {bytes : Bytes}
    : go v bytes = some w
        ↔
      (∀ b ∈ bytes, isAsciiDigit b = true) ∧ v * 10 ^ bytes.length + decimalValue bytes = w ∧ w < 2 ^ 64 := by
  induction bytes generalizing v with
  | nil =>
    simp only [go, decimalValue, List.length_nil, List.reverse_nil, List.map_nil, Nat.ofDigits_nil, Nat.pow_zero,
      Nat.mul_one, Nat.add_zero, Option.some.injEq, List.not_mem_nil, false_imp_iff, implies_true, true_and]
    constructor
    . rintro rfl
      exact ⟨rfl, hv⟩
    . intro h
      exact h.1
  | cons b bytes ih =>
    -- The value so far, with the digits behind it.
    have hvalue : v * 10 ^ (b :: bytes).length + decimalValue (b :: bytes)
        = (v * 10 + digitOf b) * 10 ^ bytes.length + decimalValue bytes := by
      rw [decimalValue_cons, List.length_cons, Nat.pow_succ]
      ring
    have hpow : 0 < 10 ^ bytes.length := Nat.pow_pos (by decide)
    have hle : v * 10 + digitOf b ≤ (v * 10 + digitOf b) * 10 ^ bytes.length := Nat.le_mul_of_pos_right _ hpow
    rw [hvalue, List.forall_mem_cons]
    unfold go
    split
    . next hdigit =>
      simp only [Option.bind_eq_some_iff, checkedU64_eq_some, hdigit, true_and]
      constructor
      . rintro ⟨x, ⟨-, rfl⟩, y, ⟨hfits, rfl⟩, hgo⟩
        exact (ih hfits).mp hgo
      . rintro ⟨hdigits, hw, hfits⟩
        have hnext : v * 10 + digitOf b < 2 ^ 64 := by omega
        refine ⟨v * 10, ⟨by omega, rfl⟩, v * 10 + digitOf b, ⟨hnext, rfl⟩, ?_⟩
        exact (ih hnext).mpr ⟨hdigits, hw, hfits⟩
    . next hdigit => simp [hdigit]

theorem parseAsciiU64_eq_some {bytes : Bytes} {v : Nat}
    : parseAsciiU64 bytes = some v
        ↔
      bytes ≠ [] ∧ (∀ b ∈ bytes, isAsciiDigit b = true) ∧ decimalValue bytes = v ∧ v < 2 ^ 64 := by
  unfold parseAsciiU64
  split
  . next hempty => simp [List.isEmpty_iff.mp hempty]
  . next hempty =>
    rw [parseAsciiU64.go_eq_some (by decide), Nat.zero_mul, Nat.zero_add]
    simp [List.isEmpty_iff.not.mp hempty]

theorem decimalCodec
    : (∀ v : UInt64, parseAsciiU64 (asciiU64 v.toNat) = some v.toNat)
        ∧ ∀ (bytes : Bytes) (v : Nat),
          parseAsciiU64 bytes = some v
            ↔
          bytes ≠ [] ∧ (∀ b ∈ bytes, isAsciiDigit b = true) ∧ decimalValue bytes = v ∧ v < 2 ^ 64 := by
  constructor
  . intro v
    exact parseAsciiU64_asciiU64 v.toNat_lt
  . intro bytes v
    exact parseAsciiU64_eq_some

example : parseAsciiU64 "018446744073709551615".toUTF8.toList = some (2 ^ 64 - 1) := by decide +kernel

example : parseAsciiU64 "18446744073709551616".toUTF8.toList = none := by decide +kernel

end Scheduler
end OpenRusty
