import Mathlib.Algebra.Group.Nat.Defs

/-!
This module contains the little endian form of natural numbers: `toBytes k n` is the lowest `k` bytes of
`n`, the lowest one first, and `ofBytes` reads such a form back.
-/

namespace LittleEndian

def toBytes (k n : Nat) : List UInt8 :=
  match k with
  | 0 => []
  | k + 1 => UInt8.ofNat n :: toBytes k (n / 256)

def ofBytes (bytes : List UInt8) : Nat := bytes.foldr (fun b n => b.toNat + 256 * n) 0

@[simp]
theorem length_toBytes (k n : Nat) : (toBytes k n).length = k := by
  induction k generalizing n with
  | zero => rfl
  | succ k ih => rw [toBytes, List.length_cons, ih]

theorem ofBytes_toBytes (k n : Nat) : ofBytes (toBytes k n) = n % 256 ^ k := by
  induction k generalizing n with
  | zero => simp [toBytes, ofBytes, Nat.mod_one]
  | succ k ih =>
    have hcons : ofBytes (toBytes (k + 1) n) = (UInt8.ofNat n).toNat + 256 * ofBytes (toBytes k (n / 256)) := by
      rfl
    have hpow : 256 ^ (k + 1) = 256 * 256 ^ k := Nat.pow_succ'
    rw [hcons, ih, UInt8.toNat_ofNat', hpow, Nat.mod_mul]

theorem toBytes_ofBytes (bytes : List UInt8) : toBytes bytes.length (ofBytes bytes) = bytes := by
  induction bytes with
  | nil => rfl
  | cons b bytes ih =>
    have hb := b.toNat_lt
    have hcons : ofBytes (b :: bytes) = b.toNat + 256 * ofBytes bytes := by rfl
    have hlow : UInt8.ofNat (b.toNat + 256 * ofBytes bytes) = b := by
      apply UInt8.toNat_inj.mp
      rw [UInt8.toNat_ofNat']
      omega
    have hhigh : (b.toNat + 256 * ofBytes bytes) / 256 = ofBytes bytes := by omega
    rw [List.length_cons, toBytes, hcons, hlow, hhigh, ih]

end LittleEndian
