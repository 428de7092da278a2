import OpenRusty.Lib.Pool
import OpenRusty.Wasm.HostState.Refinement

/-!
This module contains the KV calls of any number of threads on one host state, split into the atomic
steps of the code: an access to the map holds the lock of one shard, and the byte counter is loaded
and moved by atomic instructions in between. A sweep and a scan visit the shards one by one, a sweep
adds up what it removed and moves the counter once at the end.
-/

namespace OpenRusty

inductive KvCall where
  | setRead (key val : Bytes) (ttlMs : Int)
  | setLoad (key val : Bytes) (ttlMs : Int) (released : Nat)
  | setInsert (key val : Bytes) (ttlMs : Int)
  | setAccount (added removed : Nat)
  | delRemove (key : Bytes)
  | delAccount (removed : Nat)
  | getLookup (key : Bytes)
  | getEvict (key : Bytes) (nowMs : Nat)
  | getAccount (removed : Nat)
  | scanShard (pre : Bytes) (nowMs shard : Nat) (out : List (Bytes × Bytes))
  | sweepShard (nowMs shard removed expiredBytes : Nat)
  | sweepCursors (nowMs removed : Nat)
  | returned (answer : KvAnswer)
  deriving DecidableEq, Repr

namespace KvCall

def start (call : KvOp × Nat) : KvCall :=
  match call with
  | (.set key val ttlMs, _) => .setRead key val ttlMs
  | (.del key, _) => .delRemove key
  | (.get key, _) => .getLookup key
  | (.scan pre, nowMs) => .scanShard pre nowMs 0 []
  | (.sweep, nowMs) => .sweepShard nowMs 0 0 0

def isReturned (c : KvCall) : Bool :=
  match c with
  | .returned _ => true
  | _ => false

end KvCall

/-- How the map is split: the number of shards and the shard of each key. -/
structure Sharding where
  count : Nat
  shardOf : Bytes → Nat
  shardOf_lt : ∀ key, shardOf key < count

def oneShard : Sharding where
  count := 1
  shardOf _ := 0
  shardOf_lt := by simp

namespace HostState

def act (sh : Sharding) (s : HostState) (c : KvCall) (nowMs : Nat) : Option (HostState × KvCall) :=
  match c with
  | .setRead key val ttlMs => some (s, .setLoad key val ttlMs (s.kv.weightAt entrySize key))
  | .setLoad key val ttlMs released =>
    if kvSetVerdict key.length val.length (s.totalBytes - released) then
      some (s, .setInsert key val ttlMs)
    else
      some (s, .returned (.done false))
  | .setInsert key val ttlMs =>
    match s.insert key { value := val, expiresAt := expiryOf ttlMs nowMs } with
    | (displaced, s) =>
      some (s, .setAccount (key.length + val.length) (displaced.elim 0 (entrySize key)))
  | .setAccount added removed => some (s.account added removed, .returned (.done true))
  | .delRemove key =>
    match s.removeIf key fun _ => true with
    | (some e, s) => some (s, .delAccount (entrySize key e))
    | (none, s) => some (s, .returned (.done false))
  | .delAccount removed => some (s.account 0 removed, .returned (.done true))
  | .getLookup key =>
    match s.kv.lookup key with
    | some e =>
      if isExpired e.expiresAt nowMs then
        some (s, .getEvict key nowMs)
      else
        some (s, .returned (.value (some e.value)))
    | none => some (s, .getEvict key nowMs)
  | .getEvict key nowMs =>
    match s.removeIf key fun e => isExpired e.expiresAt nowMs with
    | (some e, s) => some (s, .getAccount (entrySize key e))
    | (none, s) => some (s, .returned (.value none))
  | .getAccount removed => some (s.account 0 removed, .returned (.value none))
  | .scanShard pre nowMs shard out =>
    if shard < sh.count then
      let found := s.kv.entries.filter fun e =>
        sh.shardOf e.1 == shard && (pre.isPrefixOf e.1 && !isExpired e.2.expiresAt nowMs)
      some (s, .scanShard pre nowMs (shard + 1) (out ++ found.map fun e => (e.1, e.2.value)))
    else
      some (s, .returned (.pairs (out.insertionSort fun a b => a.1 ≤ b.1)))
  | .sweepShard nowMs shard removed expiredBytes =>
    if shard < sh.count then
      match s.retainLive (fun key => sh.shardOf key == shard) nowMs with
      | (n, bytes, s) => some (s, .sweepShard nowMs (shard + 1) (removed + n) (expiredBytes + bytes))
    else
      some (s.account 0 expiredBytes, .sweepCursors nowMs removed)
  | .sweepCursors nowMs removed =>
    match s.retainCursors nowMs with
    | (dropped, s) => some (s, .returned (.count (removed + dropped)))
  | .returned _ => none

end HostState

abbrev KvPool := Pool HostState KvCall

abbrev KvEvent := Pool.Event (KvOp × Nat) Nat

namespace KvPool

def new : KvPool := { shared := HostState.new, threads := [] }

def step (sh : Sharding) (p : KvPool) (e : KvEvent) : Option KvPool :=
  Pool.step KvCall.start (HostState.act sh) p e

end KvPool

end OpenRusty
