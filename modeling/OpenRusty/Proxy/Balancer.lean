import Mathlib.Algebra.GroupWithZero.Nat
import OpenRusty.Core.Context

/-!
This module contains the algorithms that select a peer (`balancer.rs`). They own no state: the caller
passes the effective weights in and gets the new ones back.
-/

namespace OpenRusty

def fnvOffset : BitVec 64 := 0xcbf29ce484222325

def fnvPrime : BitVec 64 := 0x00000100000001b3

def fnv1a64 (data : Bytes) : BitVec 64 :=
  data.foldl (fun hash byte => (hash ^^^ byte.toBitVec.setWidth 64) * fnvPrime) fnvOffset

def argmax (current : List Int) : Nat :=
  (List.range' 1 (current.length - 1)).foldl
    (fun best i => if current.getD best 0 < current.getD i 0 then i else best) 0

def addWeights (current : List Int) (weights : List Nat) : List Int :=
  List.zipWith (fun (eff : Int) (weight : Nat) => eff + weight) current weights

def swrrNext (weights : List Nat) (current : List Int) : Nat × List Int :=
  let current := addWeights current weights
  let best := argmax current
  (best, current.modify best fun eff => eff - (weights.sum : Int))

def ipHashPick (clientIp : String) (healthy : List Nat) : Option Nat :=
  let hash := fnv1a64 clientIp.toUTF8.toList
  healthy[hash.toNat % healthy.length]?

def leastConnPick (inFlight weights healthy : List Nat) : Option Nat :=
  match healthy with
  | [] => none
  | first :: rest =>
    some (rest.foldl (fun best i =>
      if inFlight.getD i 0 * weights.getD best 0 < inFlight.getD best 0 * weights.getD i 0 then
        i
      else
        best) first)

theorem argmax_lt {current : List Int} (h : current ≠ []) : argmax current < current.length := by
  have hpos := List.length_pos_iff.mpr h
  unfold argmax
  have hrange : ∀ i ∈ List.range' 1 (current.length - 1), i < current.length := by
    intro i hi
    rw [List.mem_range'_1] at hi
    omega
  revert hrange
  generalize List.range' 1 (current.length - 1) = is
  generalize hbest : (0 : Nat) = best
  have hlt : best < current.length := by omega
  clear hbest
  intro hrange
  induction is generalizing best with
  | nil => exact hlt
  | cons i is ih =>
    rw [List.foldl_cons]
    split
    . apply ih
      . apply hrange
        simp
      . intro j hj
        apply hrange
        simp [hj]
    . apply ih
      . exact hlt
      . intro j hj
        apply hrange
        simp [hj]

theorem swrrNext_lt {weights : List Nat} {current : List Int} (hlen : current.length = weights.length)
    (hne : weights ≠ [])
    : (swrrNext weights current).1 < weights.length := by
  have hpos := List.length_pos_iff.mpr hne
  have hadd : (addWeights current weights).length = weights.length := by
    unfold addWeights
    rw [List.length_zipWith, hlen, Nat.min_self]
  rw [← hadd]
  apply argmax_lt
  apply List.ne_nil_of_length_pos
  omega

theorem ipHashPick_mem {clientIp : String} {healthy : List Nat} {i : Nat}
    (h : ipHashPick clientIp healthy = some i)
    : i ∈ healthy := by
  apply List.mem_of_getElem? h

theorem ipHashPick_isSome (clientIp : String) {healthy : List Nat} (h : healthy ≠ [])
    : (ipHashPick clientIp healthy).isSome := by
  have hpos := List.length_pos_iff.mpr h
  unfold ipHashPick
  simp [Nat.mod_lt _ hpos]

theorem leastConnPick_isSome (inFlight weights : List Nat) {healthy : List Nat} (h : healthy ≠ [])
    : (leastConnPick inFlight weights healthy).isSome := by
  unfold leastConnPick
  split
  . contradiction
  . rfl

theorem leastConnPick_mem {inFlight weights healthy : List Nat} {i : Nat}
    (h : leastConnPick inFlight weights healthy = some i)
    : i ∈ healthy := by
  unfold leastConnPick at h
  split at h
  . cases h
  . next first rest =>
    rw [Option.some_inj] at h
    subst h
    induction rest generalizing first with
    | nil => simp
    | cons i rest ih =>
      rw [List.foldl_cons]
      split
      . exact List.mem_cons_of_mem _ (ih i)
      . have := ih first
        grind

end OpenRusty
