import OpenRusty.Sdk.Host

/-!
This module contains the two halves of a read together: `read_two_phase` of the guest over `write_out` of
the host. Between two calls of one read the host may hold another payload, or none, and the guest may have
put its buffer elsewhere.
-/

namespace OpenRusty

structure HostCall where
  payload : Option Bytes
  before : Bytes
  after : Bytes
  /-- The arena of the guest lies in the part of its memory that a pointer can name. -/
  before_le : before.length ≤ i32Max

namespace HostCall

def held (c : HostCall) : Bytes := c.payload.getD []

def answer (c : HostCall) (buf : Bytes) : Int × Bytes :=
  match c.payload with
  | none => (0, buf)
  | some payload =>
    match writeOut (some (c.before ++ buf ++ c.after)) (asI32 c.before.length) (asI32 buf.length) payload with
    | (ret, memory) => (ret, ((memory.getD []).drop c.before.length).take buf.length)

/-- The state of an import is the number of the calls so far. -/
def read (calls : Nat → HostCall) (buf : Bytes) (n : Nat) : Int × Bytes × Nat :=
  match (calls n).answer buf with
  | (ret, buf) => (ret, buf, n + 1)

section answer

variable (c : HostCall) {buf : Bytes} (hbuf : buf.length ≤ maxReadLen)

include hbuf

theorem asI32_length : asI32 buf.length = buf.length := by
  apply asI32_eq
  unfold maxReadLen at hbuf
  unfold i32Max
  omega

theorem answer_fits (h : c.held.length ≤ buf.length)
    : c.answer buf = ((c.held.length : Int), c.held ++ buf.drop c.held.length) := by
  unfold held at h ⊢
  unfold answer
  cases hpayload : c.payload with
  | none => simp
  | some payload =>
    rw [hpayload, Option.getD_some] at h
    dsimp only
    rw [Option.getD_some, asI32_eq c.before_le, asI32_length hbuf]
    by_cases hempty : payload.length = 0
    . cases List.length_eq_zero_iff.mp hempty
      simp [writeOut]
    . have htake : (payload ++ buf.drop payload.length).length = buf.length := by
        simp only [List.length_append, List.length_drop]
        omega
      rw [writeOut_fits hempty h]
      simp only [Option.getD_some, List.append_assoc]
      rw [List.drop_left' rfl, ← List.append_assoc, List.take_left' htake]

theorem answer_too_small (h : buf.length < c.held.length) : c.answer buf = (requiredLen c.held, buf) := by
  unfold held at h ⊢
  unfold answer
  cases hpayload : c.payload with
  | none =>
    rw [hpayload] at h
    cases h
  | some payload =>
    rw [hpayload, Option.getD_some] at h
    dsimp only
    rw [Option.getD_some, asI32_length hbuf, writeOut_too_small h]
    simp

end answer

section read

variable (calls : Nat → HostCall)

theorem go_returns_held (attempts : Nat) {buf : Bytes} (hbuf : buf.length ≤ maxReadLen) (n : Nat) {out : Bytes}
    (h : (readTwoPhase.go (read calls) attempts buf n).1 = some out)
    : ∃ i, n ≤ i ∧ i < (readTwoPhase.go (read calls) attempts buf n).2 ∧ out = (calls i).held := by
  induction attempts generalizing buf n with
  | zero => cases h
  | succ attempts ih =>
    unfold readTwoPhase.go at h ⊢
    by_cases hfits : (calls n).held.length ≤ buf.length
    . unfold read at h ⊢
      rw [answer_fits (calls n) hbuf hfits] at h ⊢
      dsimp only at h ⊢
      rw [if_pos (Int.natCast_nonneg _), Int.toNat_natCast, List.take_left' rfl] at h
      rw [if_pos (Int.natCast_nonneg _)]
      cases h
      exact ⟨n, Nat.le_refl n, Nat.lt_succ_self n, rfl⟩
    . have hanswer : read calls buf n = (requiredLen (calls n).held, buf, n + 1) := by
        unfold read
        rw [answer_too_small (calls n) hbuf (Nat.lt_of_not_le hfits)]
      have hneg : ¬0 ≤ requiredLen (calls n).held := by
        unfold requiredLen
        have : 0 < min (calls n).held.length i32Max := by
          unfold i32Max
          omega
        change ¬0 ≤ -((min (calls n).held.length i32Max : Nat) : Int)
        omega
      rw [hanswer] at h ⊢
      dsimp only at h ⊢
      rw [if_neg hneg] at h ⊢
      split at h
      . cases h
      . next hgrow =>
        rw [if_neg hgrow]
        rw [Bool.or_eq_true, decide_eq_true_iff, decide_eq_true_iff] at hgrow
        have hlen : (buf ++ List.replicate ((-requiredLen (calls n).held).toNat - buf.length) 0).length
            ≤ maxReadLen := by
          simp only [List.length_append, List.length_replicate]
          omega
        rcases ih hlen (n + 1) h with ⟨i, hi, hlast, hout⟩
        exact ⟨i, by omega, hlast, hout⟩

theorem read_serves {payload : Bytes} (hlen : payload.length ≤ maxReadLen) (h : ∀ i, (calls i).held = payload)
    : Serves (read calls) payload (fun _ => True) (fun _ => True) := by
  constructor
  . intro n buf _ hsmall
    refine ⟨n + 1, ?_, trivial⟩
    unfold read
    rw [answer_too_small (calls n) (by omega) (by rw [h]; exact hsmall), h]
  . intro n buf _ hfits hbuf
    refine ⟨n + 1, ?_, trivial⟩
    unfold read
    rw [answer_fits (calls n) hbuf (by rw [h]; exact hfits), h]

end read

end HostCall

theorem readTwoPhase_returns_held (calls : Nat → HostCall)
    : (∀ out, (readTwoPhase (HostCall.read calls) 0).1 = some out →
        ∃ i, i < (readTwoPhase (HostCall.read calls) 0).2 ∧ out = (calls i).held)
        ∧
      (∀ payload : Bytes, payload.length ≤ maxReadLen → (∀ i, (calls i).held = payload) →
        (readTwoPhase (HostCall.read calls) 0).1 = some payload) := by
  constructor
  . intro out h
    have hstart : (List.replicate startLen (0 : UInt8)).length ≤ maxReadLen := by
      rw [List.length_replicate]
      decide
    rcases HostCall.go_returns_held calls 3 hstart 0 h with ⟨i, -, hlast, hout⟩
    exact ⟨i, hlast, hout⟩
  . intro payload hlen h
    rcases (HostCall.read_serves calls hlen h).readTwoPhase_eq (s := 0) trivial hlen with ⟨t, hread, -⟩
    rw [hread]

end OpenRusty
