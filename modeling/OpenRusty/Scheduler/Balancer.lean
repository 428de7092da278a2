import OpenRusty.Core.Phase
import OpenRusty.Core.Text
import OpenRusty.Lib.Pool
import OpenRusty.Scheduler.Decimal
import OpenRusty.Scheduler.LeastLoaded
import OpenRusty.Sdk.Host
import OpenRusty.Wasm.Scan.Basic

/-!
This module contains the balancer phase of the scheduler plugin (`lib.rs`) as the steps of a run: one host
call on the KV store at a time, between which the runs of other requests and the maintenance task get at
the same store. What a run reads of its request and of its upstream does not depend on the store.
-/

namespace OpenRusty
namespace Scheduler

abbrev Settings := String → Option String

def defaultTtlS : Nat := 300

def cfgNum (cfg : Settings) (key : String) (default : Nat) : Nat :=
  ((cfg key).bind fun s => parseAsciiU64 (trim s).toUTF8.toList).getD default

def asI64 (x : Nat) : Int := if x < 2 ^ 63 then x else x - 2 ^ 64

def ttlMs (cfg : Settings) : Int := asI64 (Word.saturatingMul 64 (cfgNum cfg "affinity_ttl_s" defaultTtlS) 1000)

def maxTasksPerNode (cfg : Settings) : Nat := cfgNum cfg "max_tasks_per_node" 0

def asU32 (x : Nat) : Nat := x % 2 ^ 32

def cap (cfg : Settings) : Nat := asU32 (maxTasksPerNode cfg)

def affPrefix : Bytes := [0x61, 0x66, 0x66, 0x3a]

def affKey (task : Bytes) : Bytes := affPrefix ++ task

def schedKey (idx : Nat) : Bytes := [0x73, 0x63, 0x68, 0x65, 0x64, 0x3a] ++ asciiU64 idx

structure PeerInfo where
  healthy : Bool
  deriving DecidableEq, Repr

structure Peers where
  list : List PeerInfo
  -- The host counts them with an `i32`.
  length_le : list.length ≤ i32Max

structure Request where
  /-- Without a key by the settings or the request it is `none`. -/
  task : Option Bytes
  peers : Peers

def recordPeer (val : Bytes) : Option Nat := (parseAsciiU64 val).map asU32

def affinityPeer (raw : Option Bytes) (peers : Peers) : Option Nat := do
  let raw ← raw
  let idx ← recordPeer raw
  let peer ← peers.list[idx]?
  if peer.healthy then some idx else none

def countRecord (active : List Nat) (val : Bytes) : List Nat :=
  match recordPeer val with
  | none => active
  | some idx => active.modify idx fun n => Word.saturatingAdd 32 n 1

def nodeStats (cfg : Settings) (peers : Peers) (active stamps : List Nat) : List NodeStat :=
  peers.list.mapIdx fun i peer =>
    { healthy := peer.healthy, active := active.getD i 0, lastSchedMs := stamps.getD i 0, cap := cap cfg }

inductive Stage where
  | getAff (task : Bytes) (peers : Peers)
  | renew (task : Bytes) (peers : Peers) (idx : Nat)
  -- the choice of the renewed peer for the request
  | stick (task : Bytes) (peers : Peers) (idx : Nat)
  | scanBegin (task : Bytes) (peers : Peers)
  | scanNext (task : Bytes) (peers : Peers) (cursor : Int) (active : List Nat)
  | scanEnd (task : Bytes) (peers : Peers) (cursor : Int) (active : List Nat)
  | schedTs (task : Bytes) (peers : Peers) (active stamps : List Nat)
  | record (task : Bytes) (active : List Nat) (pick : Nat)
  | readClock (pick : Nat)
  | stamp (pick nowMs : Nat)
  | setPeer (pick : Nat)
  | returned (decision : Decision)
  | maintenance

inductive Call where
  | balancer (r : Request)
  | maintenance

/-- The other two readings of the clock when a scan begins are `sweptAt` and `createdAt`. -/
structure Input where
  nowMs : Nat
  sweptAt : Nat
  createdAt : Nat
  -- what `set_peer` answers
  accepted : Bool
  deriving DecidableEq, Repr

structure Store where
  plugin : PluginState
  -- the instant of the last step
  clock : Nat

def onBalancer (r : Request) : Stage :=
  match r.task with
  | none => .returned .declined
  | some task => .getAff task r.peers

def start (call : Call) : Stage :=
  match call with
  | .balancer r => onBalancer r
  | .maintenance => .maintenance

def gatherAndPick (task : Bytes) (peers : Peers) : Stage :=
  if peers.list.isEmpty then
    .returned .declined
  else
    .scanBegin task peers

def afterStamps (cfg : Settings) (task : Bytes) (peers : Peers) (active stamps : List Nat) : Stage :=
  if stamps.length < peers.list.length then
    .schedTs task peers active stamps
  else
    match chooseLeastLoaded (nodeStats cfg peers active stamps) with
    | none => .returned .declined
    | some pick => .record task active pick

namespace Store

def kvGet (s : Store) (key : Bytes) (nowMs : Nat) : Option Bytes × Store :=
  match s.plugin.toHostState.kvGet key nowMs with
  | (raw, host) =>
    -- The guest takes an empty value for a missing one.
    (raw.filter fun raw => !raw.isEmpty,
      { plugin := { s.plugin with toHostState := host }, clock := nowMs })

def kvSet (s : Store) (key val : Bytes) (ttlMs : Int) (nowMs : Nat) : Store :=
  { plugin := { s.plugin with toHostState := (s.plugin.toHostState.kvSet key val ttlMs nowMs).2 }, clock := nowMs }

def kvScanBegin (s : Store) (pre : Bytes) (x : Input) : Int × Store :=
  match s.plugin.scanBegin pre x.sweptAt x.nowMs x.createdAt with
  | (cursor, plugin) => (cursor, { plugin := plugin, clock := x.nowMs })

/-- A dead cursor, nothing left, or a pair that is too long to be read end the scan. -/
def kvScanNext (s : Store) (cursor : Int) (x : Input) : Option Bytes × Int × Store :=
  let c := cursor.toNat
  if s.plugin.scanIsValid c then
    match s.plugin.scanPeek c with
    | some (key, val) =>
      if (encodeKvPair key val).length ≤ maxReadLen then
        (some val, cursor,
          { plugin := { s.plugin with toHostState := s.plugin.toHostState.scanAdvance c }, clock := x.nowMs })
      else
        (none, cursor, { s with clock := x.nowMs })
    | none =>
      (none, cursor,
        { plugin := { s.plugin with toHostState := (s.plugin.toHostState.scanNext c).2 }, clock := x.nowMs })
  else
    (none, scanCursorDead, { s with clock := x.nowMs })

def kvScanEnd (s : Store) (cursor : Int) (x : Input) : Store :=
  { plugin := { s.plugin with toHostState := s.plugin.toHostState.kvScanEnd cursor }, clock := x.nowMs }

def sweep (s : Store) (x : Input) : Store :=
  { plugin := { s.plugin with toHostState := (s.plugin.toHostState.sweep x.nowMs).2 }, clock := x.nowMs }

end Store

def act (cfg : Settings) (s : Store) (t : Stage) (x : Input) : Option (Store × Stage) :=
  match t with
  | .getAff task peers =>
    match s.kvGet (affKey task) x.nowMs with
    | (raw, s) =>
      match affinityPeer raw peers with
      | some idx => some (s, .renew task peers idx)
      | none => some (s, gatherAndPick task peers)
  | .renew task peers idx =>
    some (s.kvSet (affKey task) (asciiU64 idx) (ttlMs cfg) x.nowMs, .stick task peers idx)
  | .stick task peers _ =>
    some ({ s with clock := x.nowMs }, if x.accepted then .returned .ok else gatherAndPick task peers)
  | .scanBegin task peers =>
    let active := List.replicate peers.list.length 0
    match s.kvScanBegin affPrefix x with
    | (cursor, s) =>
      if cursor < 0 then
        some (s, .schedTs task peers active [])
      else
        some (s, .scanNext task peers cursor active)
  | .scanNext task peers cursor active =>
    match s.kvScanNext cursor x with
    | (some val, cursor, s) => some (s, .scanNext task peers cursor (countRecord active val))
    | (none, cursor, s) =>
      if cursor < 0 then
        some (s, .schedTs task peers active [])
      else
        some (s, .scanEnd task peers cursor active)
  | .scanEnd task peers cursor active => some (s.kvScanEnd cursor x, .schedTs task peers active [])
  | .schedTs task peers active stamps =>
    match s.kvGet (schedKey stamps.length) x.nowMs with
    | (raw, s) =>
      let stamp := (raw.bind parseAsciiU64).getD 0
      some (s, afterStamps cfg task peers active (stamps ++ [stamp]))
  | .record task _ pick =>
    some (s.kvSet (affKey task) (asciiU64 pick) (ttlMs cfg) x.nowMs, .readClock pick)
  | .readClock pick => some ({ s with clock := x.nowMs }, .stamp pick x.nowMs)
  | .stamp pick nowMs =>
    some (s.kvSet (schedKey pick) (asciiU64 nowMs) (ttlMs cfg) x.nowMs, .setPeer pick)
  | .setPeer _ => some ({ s with clock := x.nowMs }, .returned (if x.accepted then .ok else .declined))
  | .returned _ => none
  | .maintenance => some (s.sweep x, .maintenance)

abbrev Runs := Pool Store Stage

abbrev Event := Pool.Event Call Input

namespace Runs

def new : Runs := { shared := { plugin := PluginState.new, clock := 0 }, threads := [] }

def step (cfg : Settings) (p : Runs) (e : Event) : Option Runs := Pool.step start (act cfg) p e

end Runs

end Scheduler
end OpenRusty
