import OpenRusty.Core.Context

/-!
This module contains the writes of the host into the linear memory of a guest (`mem.rs`). Pointers and
lengths are the `i32` values of the call; the memory is `none` for a guest that exports none.
-/

namespace OpenRusty

def i32Max : Nat := 2 ^ 31 - 1

def memoryWrite (memory : Bytes) (ptr : Nat) (payload : Bytes) : Option Bytes :=
  if ptr + payload.length ≤ memory.length then
    some (memory.take ptr ++ payload ++ memory.drop (ptr + payload.length))
  else
    none

/-- How a call asks for a larger buffer. -/
def requiredLen (payload : Bytes) : Int := -Int.ofNat (min payload.length i32Max)

def writeOut (memory : Option Bytes) (outPtr outCap : Int) (payload : Bytes) : Int × Option Bytes :=
  if payload.isEmpty then
    (0, memory)
  else
    let required := requiredLen payload
    if outPtr < 0 || outCap < 0 || outCap.toNat < payload.length then
      (required, memory)
    else
      match memory with
      | none => (required, none)
      | some bytes =>
        match memoryWrite bytes outPtr.toNat payload with
        | none => (required, memory)
        | some bytes => (payload.length, some bytes)

section buffer

variable {pre buf post payload : Bytes}

theorem memoryWrite_buffer (h : payload.length ≤ buf.length)
    : memoryWrite (pre ++ buf ++ post) pre.length payload
        =
      some (pre ++ (payload ++ buf.drop payload.length) ++ post) := by
  unfold memoryWrite
  rw [if_pos (by simp; omega)]
  have hdrop : (pre ++ buf ++ post).drop (pre.length + payload.length) = buf.drop payload.length ++ post := by
    rw [List.append_assoc, List.drop_append, List.drop_eq_nil_of_le (by omega), List.nil_append]
    rw [Nat.add_sub_cancel_left, List.drop_append_of_le_length h]
  rw [hdrop, List.append_assoc pre, List.take_left' rfl]
  simp

theorem writeOut_fits (hne : payload.length ≠ 0) (h : payload.length ≤ buf.length)
    : writeOut (some (pre ++ buf ++ post)) pre.length buf.length payload
        =
      ((payload.length : Int), some (pre ++ (payload ++ buf.drop payload.length) ++ post)) := by
  have hempty : payload.isEmpty = false := by
    cases payload with
    | nil => exact absurd rfl hne
    | cons b payload => rfl
  unfold writeOut
  rw [hempty]
  simp only [Int.toNat_natCast, memoryWrite_buffer h]
  simp
  omega

theorem writeOut_too_small {memory : Option Bytes} {outPtr : Int} (h : buf.length < payload.length)
    : writeOut memory outPtr buf.length payload = (requiredLen payload, memory) := by
  have hempty : payload.isEmpty = false := by
    cases payload with
    | nil => cases h
    | cons b payload => rfl
  unfold writeOut
  rw [hempty]
  simp [h]

end buffer

end OpenRusty
