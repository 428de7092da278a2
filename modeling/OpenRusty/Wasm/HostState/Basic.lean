import Mathlib.Data.List.Sort
import OpenRusty.Core.Context
import OpenRusty.Lib.FinMap
import OpenRusty.Lib.Word

/-!
This module contains the shared host state of one plugin (`host_state.rs`): the KV store with its
byte quota and its lazily dropped expired entries, and the scan cursors that a sweep reclaims.
Every operation that reads the clock takes the instant it reads as an argument.
-/

namespace OpenRusty

structure KvEntry where
  value : Bytes
  /-- An entry that never expires has `Word.max 64`. -/
  expiresAt : Nat
  deriving DecidableEq, Repr

structure ScanCursor where
  entries : List (Bytes × Bytes)
  pos : Nat
  createdAt : Nat
  deriving DecidableEq, Repr

def cursorTtlMs : Nat := 60000

def kvMaxValueBytes : Nat := 64 * 1024

def kvMaxTotalBytes : Nat := 1024 * 1024

def isExpired (expiresAt nowMs : Nat) : Bool :=
  expiresAt != Word.max 64 && decide (expiresAt ≤ nowMs)

def kvSetVerdict (keyLen valLen totalBytes : Nat) : Bool :=
  decide (valLen ≤ kvMaxValueBytes)
    && decide (Word.saturatingAdd 64 totalBytes (keyLen + valLen) ≤ kvMaxTotalBytes)

def entrySize (key : Bytes) (e : KvEntry) : Nat := key.length + e.value.length

def expiryOf (ttlMs : Int) (nowMs : Nat) : Nat :=
  if ttlMs ≤ 0 then Word.max 64 else Word.saturatingAdd 64 nowMs ttlMs.toNat

structure HostState where
  kv : AList fun _ : Bytes => KvEntry
  totalBytes : Nat
  cursors : AList fun _ : Nat => ScanCursor

namespace HostState

def new : HostState :=
  { kv := ∅, totalBytes := 0, cursors := ∅ }

def storedBytes (s : HostState) : Nat := s.kv.weight entrySize

/-!
The map operations below are the steps that the sharded map takes under one lock.
-/

def insert (s : HostState) (key : Bytes) (e : KvEntry) : Option KvEntry × HostState :=
  (s.kv.lookup key, { s with kv := s.kv.insert key e })

def removeIf (s : HostState) (key : Bytes) (p : KvEntry → Bool) : Option KvEntry × HostState :=
  match s.kv.lookup key with
  | some e => if p e then (some e, { s with kv := s.kv.erase key }) else (none, s)
  | none => (none, s)

/-- The entries whose key is not in `sel` are left alone: a sweep takes one shard at a time. -/
def retainLive (s : HostState) (sel : Bytes → Bool) (nowMs : Nat) : Nat × Nat × HostState :=
  let expired := s.kv.retain fun k e => sel k && isExpired e.expiresAt nowMs
  let live := s.kv.retain fun k e => !(sel k && isExpired e.expiresAt nowMs)
  (expired.entries.length, expired.weight entrySize, { s with kv := live })

def account (s : HostState) (added removed : Nat) : HostState :=
  if removed < added then
    { s with totalBytes := Word.wrappingAdd 64 s.totalBytes (added - removed) }
  else if added < removed then
    { s with totalBytes := Word.wrappingSub 64 s.totalBytes (removed - added) }
  else
    s

def retainCursors (s : HostState) (nowMs : Nat) : Nat × HostState :=
  let dead := fun (_ : Nat) (c : ScanCursor) =>
    decide (c.entries.length ≤ c.pos) || decide (cursorTtlMs ≤ nowMs - c.createdAt)
  ((s.cursors.retain dead).entries.length,
    { s with cursors := s.cursors.retain fun i c => !dead i c })

def kvGetWith (s : HostState) (key : Bytes) (f : Bytes → ρ) (nowMs : Nat) : Option ρ × HostState :=
  match s.kv.lookup key with
  | some e => if isExpired e.expiresAt nowMs then evict else (some (f e.value), s)
  | none => evict
where
  evict : Option ρ × HostState :=
    match s.removeIf key fun e => isExpired e.expiresAt nowMs with
    | (some e, s) => (none, s.account 0 (entrySize key e))
    | (none, s) => (none, s)

def kvGet (s : HostState) (key : Bytes) (nowMs : Nat) : Option Bytes × HostState :=
  s.kvGetWith key id nowMs

def kvSet (s : HostState) (key val : Bytes) (ttlMs : Int) (nowMs : Nat) : Bool × HostState :=
  let released := s.kv.weightAt entrySize key
  if kvSetVerdict key.length val.length (s.totalBytes - released) then
    let added := key.length + val.length
    match s.insert key { value := val, expiresAt := expiryOf ttlMs nowMs } with
    | (displaced, s) =>
      let removed := displaced.elim 0 (entrySize key)
      (true, s.account added removed)
  else
    (false, s)

def kvDel (s : HostState) (key : Bytes) : Bool × HostState :=
  match s.removeIf key fun _ => true with
  | (some e, s) => (true, s.account 0 (entrySize key e))
  | (none, s) => (false, s)

def kvScan (s : HostState) (pre : Bytes) (nowMs : Nat) : List (Bytes × Bytes) :=
  let out := s.kv.entries.filter fun e => pre.isPrefixOf e.1 && !isExpired e.2.expiresAt nowMs
  (out.map fun e => (e.1, e.2.value)).insertionSort fun a b => a.1 ≤ b.1

def sweep (s : HostState) (nowMs : Nat) : Nat × HostState :=
  match s.retainLive (fun _ => true) nowMs with
  | (removed, expiredBytes, s) =>
    match (s.account 0 expiredBytes).retainCursors nowMs with
    | (dropped, s) => (removed + dropped, s)

end HostState

end OpenRusty
