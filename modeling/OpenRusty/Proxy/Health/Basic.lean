import Mathlib.Data.List.AList
import OpenRusty.Core.Config
import OpenRusty.Lib.Word

/-!
This module contains the health registry (`health.rs`). The passive plane counts the outcomes of
requests and marks peers down for a while, the active plane keeps the verdicts of probes by address
and mirrors them into the slots of the peers, and every slot carries the gauge of the requests that
are in flight on its peer.
-/

namespace OpenRusty

structure PeerCounters where
  fails : Nat := 0
  windowStartMs : Nat := 0
  deriving DecidableEq, Repr

structure PeerHealth where
  counters : PeerCounters := {}
  downUntilMs : Nat := 0
  activeOk : Bool := true
  inFlight : Nat := 0
  deriving DecidableEq, Repr

structure PeerSlots where
  addrs : List SocketAddr
  peers : List PeerHealth
  length_eq : peers.length = addrs.length

structure ActivePeer where
  healthy : Bool := true
  fails : Nat := 0
  successes : Nat := 0
  deriving DecidableEq, Repr

structure HealthRegistry where
  upstreams : AList fun _ : String => PeerSlots
  active : AList fun _ : String × SocketAddr => ActivePeer

def evaluateFailure (failsAfter windowStart nowMs : Nat) (cfg : HealthConfig) : Option Nat :=
  if cfg.maxFails = 0 then
    none
  else if Word.saturatingMul 64 cfg.failWindowS 1000 < nowMs - windowStart then
    none
  else if cfg.maxFails ≤ failsAfter then
    some (Word.wrappingAdd 64 nowMs (Word.saturatingMul 64 cfg.failTimeoutS 1000))
  else
    none

def evaluateActive (healthy : Bool) (fails successes : Nat) (ok : Bool)
    (unhealthyThreshold healthyThreshold : Nat)
    : Bool × Nat × Nat :=
  if ok then
    let successes := Word.wrappingAdd 32 successes 1
    (healthy || decide (healthyThreshold ≤ successes), 0, successes)
  else
    let fails := Word.wrappingAdd 32 fails 1
    (healthy && decide (fails < unhealthyThreshold), fails, 0)

namespace PeerHealth

def isUp (p : PeerHealth) (nowMs : Nat) : Bool := decide (p.downUntilMs ≤ nowMs) && p.activeOk

def recordFailure (p : PeerHealth) (cfg : HealthConfig) (nowMs : Nat) : PeerHealth :=
  let counters :=
    if Word.saturatingMul 64 cfg.failWindowS 1000 < nowMs - p.counters.windowStartMs then
      { fails := 0, windowStartMs := nowMs }
    else
      p.counters
  let counters := { counters with fails := counters.fails + 1 }
  match evaluateFailure counters.fails counters.windowStartMs nowMs cfg with
  | some downUntil => { p with counters := { counters with fails := 0 }, downUntilMs := downUntil }
  | none => { p with counters := counters }

def recordSuccess (p : PeerHealth) (nowMs : Nat) : PeerHealth :=
  { p with counters := { fails := 0, windowStartMs := nowMs } }

def incInFlight (p : PeerHealth) : PeerHealth := { p with inFlight := p.inFlight + 1 }

def decInFlight (p : PeerHealth) : PeerHealth := { p with inFlight := p.inFlight - 1 }

end PeerHealth

namespace PeerSlots

def modify (slots : PeerSlots) (idx : Nat) (f : PeerHealth → PeerHealth) : PeerSlots :=
  { slots with
    peers := slots.peers.modify idx f
    length_eq := by simp [slots.length_eq] }

/-- An address that is listed twice hands on the state of its last slot. -/
def previous (slots : PeerSlots) (addr : SocketAddr) : Option PeerHealth :=
  (slots.addrs.zip slots.peers).reverse.lookup addr

def addrSlot (slots : PeerSlots) (addr : SocketAddr) : Option Nat :=
  slots.addrs.findIdx? fun a => a == addr

end PeerSlots

namespace HealthRegistry

def new : HealthRegistry := { upstreams := ∅, active := ∅ }

def isActiveHealthy (h : HealthRegistry) (upstream : String) (addr : SocketAddr) : Bool :=
  (h.active.lookup (upstream, addr)).all ActivePeer.healthy

def inherit (h : HealthRegistry) (upstream : String) (addr : SocketAddr) : PeerHealth :=
  let previous := (h.upstreams.lookup upstream).bind fun slots => slots.previous addr
  { previous.getD {} with activeOk := h.isActiveHealthy upstream addr }

def register (h : HealthRegistry) (upstream : String) (addrs : List SocketAddr) : HealthRegistry :=
  let slots : PeerSlots := {
    addrs := addrs
    peers := addrs.map fun addr => h.inherit upstream addr
    length_eq := by simp
  }
  { h with upstreams := h.upstreams.insert upstream slots }

def lookup (h : HealthRegistry) (upstream : String) (idx : Nat) : Option PeerSlots :=
  (h.upstreams.lookup upstream).filter fun slots => decide (idx < slots.peers.length)

def isHealthy (h : HealthRegistry) (upstream : String) (idx nowMs : Nat) : Bool :=
  match h.lookup upstream idx with
  | some slots => slots.peers[idx]?.all fun p => p.isUp nowMs
  | none => true

def healthyIndices (h : HealthRegistry) (upstream : String) (peerCount nowMs : Nat) : List Nat :=
  match h.upstreams.lookup upstream with
  | some slots => (List.range peerCount).filter fun i => slots.peers[i]?.all fun p => p.isUp nowMs
  | none => List.range peerCount

def modifyAt (h : HealthRegistry) (upstream : String) (idx : Nat) (f : PeerHealth → PeerHealth)
    : HealthRegistry :=
  match h.lookup upstream idx with
  | some slots => { h with upstreams := h.upstreams.insert upstream (slots.modify idx f) }
  | none => h

def recordFailure (h : HealthRegistry) (upstream : String) (idx : Nat) (cfg : HealthConfig)
    (nowMs : Nat)
    : HealthRegistry :=
  if cfg.maxFails = 0 then
    h
  else
    h.modifyAt upstream idx fun p => p.recordFailure cfg nowMs

def recordSuccess (h : HealthRegistry) (upstream : String) (idx nowMs : Nat) : HealthRegistry :=
  h.modifyAt upstream idx fun p => p.recordSuccess nowMs

def recordProbe (h : HealthRegistry) (upstream : String) (idx : Nat) (addr : SocketAddr) (ok : Bool)
    (unhealthyThreshold healthyThreshold : Nat)
    : Bool × HealthRegistry :=
  let peer := (h.active.lookup (upstream, addr)).getD {}
  match evaluateActive peer.healthy peer.fails peer.successes ok unhealthyThreshold
    healthyThreshold with
  | (healthy, fails, successes) =>
    let active := h.active.insert (upstream, addr) { healthy, fails, successes }
    let h := { h with active }
    (healthy, h.modifyAt upstream idx fun p => { p with activeOk := healthy })

def modifyAddr (h : HealthRegistry) (upstream : String) (addr : SocketAddr)
    (f : PeerHealth → PeerHealth)
    : HealthRegistry :=
  match h.upstreams.lookup upstream with
  | some slots =>
    match slots.addrSlot addr with
    | some pos => { h with upstreams := h.upstreams.insert upstream (slots.modify pos f) }
    | none => h
  | none => h

def incInFlight (h : HealthRegistry) (upstream : String) (addr : SocketAddr) : HealthRegistry :=
  h.modifyAddr upstream addr PeerHealth.incInFlight

def decInFlight (h : HealthRegistry) (upstream : String) (addr : SocketAddr) : HealthRegistry :=
  h.modifyAddr upstream addr PeerHealth.decInFlight

def inFlights (h : HealthRegistry) (upstream : String) (addrs : List SocketAddr) : List Nat :=
  match h.upstreams.lookup upstream with
  | some slots =>
    addrs.map fun addr =>
      (slots.addrSlot addr).elim 0 fun pos => slots.peers[pos]?.elim 0 PeerHealth.inFlight
  | none => addrs.map fun _ => 0

end HealthRegistry

/-- The calls on the registry, each of them one atomic step. -/
inductive HealthOp where
  | register (upstream : String) (addrs : List SocketAddr)
  | recordFailure (upstream : String) (idx : Nat) (cfg : HealthConfig) (nowMs : Nat)
  | recordSuccess (upstream : String) (idx nowMs : Nat)
  | recordProbe (upstream : String) (idx : Nat) (addr : SocketAddr) (ok : Bool)
      (unhealthyThreshold healthyThreshold : Nat)
  | incInFlight (upstream : String) (addr : SocketAddr)
  | decInFlight (upstream : String) (addr : SocketAddr)
  deriving DecidableEq, Repr

def HealthRegistry.exec (h : HealthRegistry) (op : HealthOp) : HealthRegistry :=
  match op with
  | .register upstream addrs => h.register upstream addrs
  | .recordFailure upstream idx cfg nowMs => h.recordFailure upstream idx cfg nowMs
  | .recordSuccess upstream idx nowMs => h.recordSuccess upstream idx nowMs
  | .recordProbe upstream idx addr ok unhealthyThreshold healthyThreshold =>
    (h.recordProbe upstream idx addr ok unhealthyThreshold healthyThreshold).2
  | .incInFlight upstream addr => h.incInFlight upstream addr
  | .decInFlight upstream addr => h.decInFlight upstream addr

end OpenRusty
