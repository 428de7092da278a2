import OpenRusty.Wasm.HostState.Refinement
import OpenRusty.Wasm.Mem
import OpenRusty.Wasm.Tlv

/-!
This module contains the scans over the KV store of a plugin: the cursors (`host_state.rs`) and the
imports of the guest that open, advance and drop them (`linker_kv.rs`). A cursor holds the entries that
were live when it was opened.
-/

namespace OpenRusty

def sweepEvery : Nat := 256

def maxCursors : Nat := 64

structure PluginState extends HostState where
  nextCursor : Nat
  staleOps : Nat

namespace HostState

def scanPeek (s : HostState) (cursor : Nat) : Option (Bytes × Bytes) :=
  (s.cursors.lookup cursor).bind fun c => c.entries[c.pos]?

def scanAdvance (s : HostState) (cursor : Nat) : HostState :=
  match s.cursors.lookup cursor with
  | some c =>
    let c := { c with pos := c.pos + 1 }
    if c.entries.length ≤ c.pos then
      { s with cursors := s.cursors.erase cursor }
    else
      { s with cursors := s.cursors.insert cursor c }
  | none => s

def scanIsValid (s : HostState) (cursor : Nat) : Bool := (s.cursors.lookup cursor).isSome

def scanNext (s : HostState) (cursor : Nat) : Option (Bytes × Bytes) × HostState :=
  match s.scanPeek cursor with
  | some item => (some item, s.scanAdvance cursor)
  | none => (none, { s with cursors := s.cursors.erase cursor })

def scanEnd (s : HostState) (cursor : Nat) : HostState :=
  { s with cursors := s.cursors.erase cursor }

def kvScanNext (s : HostState) (memory : Option Bytes) (cursor outPtr outCap : Int)
    : Int × HostState × Option Bytes :=
  if cursor < 0 then
    (-1, s, memory)
  else
    let c := cursor.toNat
    if s.scanIsValid c then
      match s.scanPeek c with
      | some (k, v) =>
        match writeOut memory outPtr outCap (encodeKvPair k v) with
        -- An entry is only consumed once the guest has got it.
        | (r, memory) => (r, if 0 ≤ r then s.scanAdvance c else s, memory)
      | none => (0, (s.scanNext c).2, memory)
    else
      (-1, s, memory)

def kvScanEnd (s : HostState) (cursor : Int) : HostState :=
  if 0 ≤ cursor then s.scanEnd cursor.toNat else s

end HostState

namespace PluginState

def new : PluginState := { HostState.new with nextCursor := 0, staleOps := 0 }

def maintain (s : PluginState) (nowMs : Nat) : PluginState :=
  if sweepEvery ≤ s.staleOps then
    { s with toHostState := (s.sweep nowMs).2, staleOps := 0 }
  else
    { s with staleOps := Word.wrappingAdd 32 s.staleOps 1 }

/-- The clock is read for the sweep, for the snapshot and for the age of the cursor. -/
def scanBegin (s : PluginState) (pre : Bytes) (sweptAt scannedAt createdAt : Nat) : Int × PluginState :=
  let s := s.maintain sweptAt
  let entries := s.kvScan pre scannedAt
  if maxCursors ≤ s.cursors.entries.length then
    (-1, s)
  else
    let id := s.nextCursor
    let s := { s with nextCursor := Word.wrappingAdd 32 id 1 }
    if id ≤ i32Max then
      let cursor : ScanCursor := { entries := entries, pos := 0, createdAt := createdAt }
      (id, { s with cursors := s.cursors.insert id cursor })
    else
      (-1, s)

end PluginState

end OpenRusty
