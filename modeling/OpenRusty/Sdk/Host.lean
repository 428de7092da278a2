import OpenRusty.Wasm.Mem
import OpenRusty.Wasm.Tlv

/-!
This module contains the guest side of the host calls (`ffi.rs` and `host.rs` of the SDK): the read with
a growing buffer and the iterator over a scan. An import gets a buffer and returns its code and what the
buffer holds afterwards; `σ` is the state of everything outside the guest.
-/

namespace OpenRusty

def maxReadLen : Nat := 1024 * 1024

def startLen : Nat := 256

def scanBufLen : Nat := 256

def scanCursorDead : Int := -1

def asI32 (n : Nat) : Int :=
  if n % 2 ^ 32 ≤ i32Max then (n % 2 ^ 32 : Nat) else (n % 2 ^ 32 : Nat) - 2 ^ 32

theorem asI32_eq {n : Nat} (h : n ≤ i32Max) : asI32 n = n := by
  have hmod : n % 2 ^ 32 = n := by
    unfold i32Max at h
    omega
  unfold asI32
  rw [hmod, if_pos h]

variable {σ : Type}

def readTwoPhase (read : Bytes → σ → Int × Bytes × σ) (s : σ) : Option Bytes × σ :=
  go 3 (List.replicate startLen 0) s
where
  go (attempts : Nat) (buf : Bytes) (s : σ) : Option Bytes × σ :=
    match attempts with
    | 0 => (none, s)
    | attempts + 1 =>
      match read buf s with
      | (ret, buf, s) =>
        if 0 ≤ ret then
          (some (buf.take ret.toNat), s)
        else
          let need := (-ret).toNat
          if need ≤ buf.length || maxReadLen < need then
            (none, s)
          else
            go attempts (buf ++ List.replicate (need - buf.length) 0) s

def scanStep (next : Int → Bytes → σ → Int × Bytes × σ) (cursor : Int) (s : σ)
    : Option Bytes × Int × σ :=
  if cursor < 0 then
    (none, cursor, s)
  else
    match next cursor (List.replicate scanBufLen 0) s with
    | (ret, buf, s) =>
      if ret = 0 then
        (none, cursor, s)
      else if ret = scanCursorDead then
        (none, scanCursorDead, s)
      else if ret < 0 then
        match readTwoPhase (next cursor) s with
        | (out, s) => (out, cursor, s)
      else
        (some (buf.take ret.toNat), cursor, s)

structure KvScan where
  cursor : Int
  deriving DecidableEq, Repr

namespace KvScan

variable (kvScanNext : Int → Bytes → σ → Int × Bytes × σ)

def next (scan : KvScan) (s : σ) : Option (Bytes × Bytes) × KvScan × σ :=
  match scanStep kvScanNext scan.cursor s with
  | (tlv, cursor, s) => (tlv.map kvPairFromTlv, { cursor := cursor }, s)

/-- What a loop over the scan sees; `none` if the scan has not ended after `fuel` rounds. -/
def collect (fuel : Nat) (scan : KvScan) (s : σ) : Option (List (Bytes × Bytes)) :=
  match fuel with
  | 0 => none
  | fuel + 1 =>
    match scan.next kvScanNext s with
    | (none, _, _) => some []
    | (some item, scan, s) => (collect fuel scan s).map fun items => item :: items

end KvScan

structure Serves (read : Bytes → σ → Int × Bytes × σ) (payload : Bytes) (I J : σ → Prop) : Prop where
  too_small : ∀ s buf, I s → buf.length < payload.length →
    ∃ t, read buf s = (requiredLen payload, buf, t) ∧ I t
  fits : ∀ s buf, I s → payload.length ≤ buf.length → buf.length ≤ maxReadLen →
    ∃ t, read buf s = ((payload.length : Int), payload ++ buf.drop payload.length, t) ∧ J t

theorem requiredLen_eq {payload : Bytes} (h : payload.length ≤ maxReadLen)
    : requiredLen payload = -(payload.length : Int) := by
  have hmin : min payload.length i32Max = payload.length := by
    unfold maxReadLen at h
    unfold i32Max
    omega
  unfold requiredLen
  rw [hmin]
  rfl

namespace Serves

variable {read : Bytes → σ → Int × Bytes × σ} {payload : Bytes} {I J : σ → Prop} {s : σ}

theorem go_of_fits (h : Serves read payload I J) (hs : I s) {buf : Bytes}
    (hlen : payload.length ≤ buf.length) (hbuf : buf.length ≤ maxReadLen) (attempts : Nat)
    : ∃ t, readTwoPhase.go read (attempts + 1) buf s = (some payload, t) ∧ J t := by
  rcases h.fits s buf hs hlen hbuf with ⟨t, hread, ht⟩
  refine ⟨t, ?_, ht⟩
  unfold readTwoPhase.go
  rw [hread]
  dsimp only
  rw [if_pos (by omega), Int.toNat_natCast, List.take_left' rfl]

theorem readTwoPhase_eq (h : Serves read payload I J) (hs : I s) (hlen : payload.length ≤ maxReadLen)
    : ∃ t, readTwoPhase read s = (some payload, t) ∧ J t := by
  have hstart : (List.replicate startLen (0 : UInt8)).length = startLen := by simp
  unfold readTwoPhase
  by_cases hfits : payload.length ≤ startLen
  . apply h.go_of_fits hs
    . rw [hstart]
      exact hfits
    . rw [hstart]
      decide
  . rcases h.too_small s (List.replicate startLen 0) hs (by omega) with ⟨t, hread, ht⟩
    have hneed : (- -(payload.length : Int)).toNat = payload.length := by omega
    unfold readTwoPhase.go
    rw [hread, requiredLen_eq hlen]
    dsimp only
    rw [if_neg (by omega), hneed, hstart]
    rw [if_neg (by simp; omega)]
    apply h.go_of_fits ht
    . simp only [List.length_append, List.length_replicate]
      omega
    . simp only [List.length_append, List.length_replicate]
      omega

end Serves

theorem scanStep_of_serves {next : Int → Bytes → σ → Int × Bytes × σ} {cursor : Int} {payload : Bytes}
    {I J : σ → Prop} (h : Serves (next cursor) payload I J) (hcursor : 0 ≤ cursor) {s : σ} (hs : I s)
    (hmin : 2 ≤ payload.length) (hlen : payload.length ≤ maxReadLen)
    : ∃ t, scanStep next cursor s = (some payload, cursor, t) ∧ J t := by
  have hbuf : (List.replicate scanBufLen (0 : UInt8)).length = scanBufLen := by simp
  unfold scanStep
  rw [if_neg (by omega)]
  by_cases hfits : payload.length ≤ scanBufLen
  . rcases h.fits s (List.replicate scanBufLen 0) hs (by omega) (by rw [hbuf]; decide) with ⟨t, hnext, ht⟩
    refine ⟨t, ?_, ht⟩
    rw [hnext]
    dsimp only
    rw [if_neg (by omega), if_neg (by unfold scanCursorDead; omega), if_neg (by omega)]
    rw [Int.toNat_natCast, List.take_left' rfl]
  . rcases h.too_small s (List.replicate scanBufLen 0) hs (by omega) with ⟨t, hnext, ht⟩
    rcases h.readTwoPhase_eq ht hlen with ⟨u, hread, hu⟩
    refine ⟨u, ?_, hu⟩
    rw [hnext, requiredLen_eq hlen]
    dsimp only
    rw [if_neg (by omega), if_neg (by unfold scanCursorDead; omega), if_pos (by omega), hread]

theorem scanStep_of_end {next : Int → Bytes → σ → Int × Bytes × σ} {cursor : Int} {s : σ}
    (h : (next cursor (List.replicate scanBufLen 0) s).1 = -1
      ∨ (next cursor (List.replicate scanBufLen 0) s).1 = 0)
    : (scanStep next cursor s).1 = none := by
  unfold scanStep
  split
  . rfl
  . revert h
    rcases next cursor (List.replicate scanBufLen 0) s with ⟨ret, buf, t⟩
    rintro (rfl | rfl)
    . rfl
    . rfl

end OpenRusty
