import OpenRusty.Lib.Pool
import OpenRusty.Proxy.Health.Basic

/-!
This module contains the calls on the health registry (`health.rs`), any number of them at a time. The
slots of an upstream are a block behind an `Arc`: an outcome looks the block up under the lock of the map
and then works under the lock of its slot, a gauge is moved under the lock of the map, and a reload copies
the slots one by one into a new block under that lock. A lock is kept together with what its holder has
still to do.
-/

namespace OpenRusty

inductive HealthCall where
  | register (upstream : String) (addrs : List SocketAddr)
  | recordFailure (upstream : String) (idx : Nat) (cfg : HealthConfig) (nowMs : Nat)
  | recordSuccess (upstream : String) (idx nowMs : Nat)
  | incInFlight (upstream : String) (addr : SocketAddr)
  | decInFlight (upstream : String) (addr : SocketAddr)
  deriving DecidableEq

def HealthCall.op (call : HealthCall) : HealthOp :=
  match call with
  | .register upstream addrs => .register upstream addrs
  | .recordFailure upstream idx cfg nowMs => .recordFailure upstream idx cfg nowMs
  | .recordSuccess upstream idx nowMs => .recordSuccess upstream idx nowMs
  | .incInFlight upstream addr => .incInFlight upstream addr
  | .decInFlight upstream addr => .decInFlight upstream addr

/-- What the holder of the lock of a slot has still to do. -/
inductive SlotSection where
  | counting (cfg : HealthConfig) (nowMs : Nat)
  | marking (downUntil : Nat)
  | clearing
  | closing (nowMs : Nat)
  | unlocking
  /-- The guard of the counters lives to the end of the clone -/
  | cloning
  deriving DecidableEq

structure SharedSlot where
  health : PeerHealth := {}
  held : Option SlotSection := none
  deriving DecidableEq

structure SharedBlock where
  addrs : List SocketAddr
  slots : List SharedSlot
  length_eq : slots.length = addrs.length

structure Copying where
  upstream : String
  addrs : List SocketAddr
  copied : List PeerHealth := []
  deriving DecidableEq

inductive MapSection where
  | moving
  | copying (c : Copying)
  deriving DecidableEq

structure SharedHealth where
  /-- Every block that was ever allocated, `upstreams` is the map of the current ones -/
  blocks : List SharedBlock := []
  upstreams : AList fun _ : String => Nat := ∅
  active : AList fun _ : String × SocketAddr => ActivePeer
  held : Option MapSection := none

inductive HealthProgress where
  | start
  | found (block : Nat)
  | inside (block : Nat)
  | locked
  | done
  deriving DecidableEq

structure HealthTask where
  call : HealthCall
  progress : HealthProgress := .start
  deriving DecidableEq

namespace SlotSection

def step (todo : SlotSection) (p : PeerHealth) : Option (PeerHealth × Option SlotSection) :=
  match todo with
  | .counting cfg nowMs =>
    let counters :=
      if Word.saturatingMul 64 cfg.failWindowS 1000 < nowMs - p.counters.windowStartMs then
        { fails := 0, windowStartMs := nowMs }
      else
        p.counters
    let counters := { counters with fails := counters.fails + 1 }
    match evaluateFailure counters.fails counters.windowStartMs nowMs cfg with
    | some downUntil => some ({ p with counters := counters }, some (.marking downUntil))
    | none => some ({ p with counters := counters }, some .unlocking)
  | .marking downUntil => some ({ p with downUntilMs := downUntil }, some .clearing)
  | .clearing => some ({ p with counters := { p.counters with fails := 0 } }, some .unlocking)
  | .closing nowMs => some ({ p with counters := { fails := 0, windowStartMs := nowMs } }, some .unlocking)
  | .unlocking => some (p, none)
  | .cloning => none

end SlotSection

namespace SharedBlock

def modify (block : SharedBlock) (idx : Nat) (f : SharedSlot → SharedSlot) : SharedBlock :=
  { block with
    slots := block.slots.modify idx f
    length_eq := by simp [block.length_eq] }

def modifyAddr (block : SharedBlock) (addr : SocketAddr) (f : PeerHealth → PeerHealth) : SharedBlock :=
  match block.addrs.findIdx? fun a => a == addr with
  | some pos => block.modify pos fun slot => { slot with health := f slot.health }
  | none => block

end SharedBlock

namespace SharedHealth

def new (active : AList fun _ : String × SocketAddr => ActivePeer) : SharedHealth := { active }

def slot (s : SharedHealth) (b idx : Nat) : Option SharedSlot :=
  s.blocks[b]?.bind fun block => block.slots[idx]?

def setSlot (s : SharedHealth) (b idx : Nat) (slot : SharedSlot) : SharedHealth :=
  { s with blocks := s.blocks.modify b fun block => block.modify idx fun _ => slot }

def modifyAddr (s : SharedHealth) (upstream : String) (addr : SocketAddr) (f : PeerHealth → PeerHealth)
    : SharedHealth :=
  match s.upstreams.lookup upstream with
  | some b => { s with blocks := s.blocks.modify b fun block => block.modifyAddr addr f }
  | none => s

def lookup (s : SharedHealth) (upstream : String) (idx : Nat) : Option Nat :=
  (s.upstreams.lookup upstream).filter fun b =>
    s.blocks[b]?.any fun block => decide (idx < block.slots.length)

def current (s : SharedHealth) (upstream : String) : Option SharedBlock :=
  (s.upstreams.lookup upstream).bind fun b => s.blocks[b]?

def fresh (s : SharedHealth) (c : Copying) : SharedBlock :=
  let addrs := (s.current c.upstream).elim [] SharedBlock.addrs
  let previous (addr : SocketAddr) : Option PeerHealth := (addrs.zip c.copied).reverse.lookup addr
  let verdict (addr : SocketAddr) : Bool := (s.active.lookup (c.upstream, addr)).all ActivePeer.healthy
  {
    addrs := c.addrs
    slots := c.addrs.map fun addr =>
      { health := { (previous addr).getD {} with activeOk := verdict addr } }
    length_eq := by simp
  }

def install (s : SharedHealth) (c : Copying) : SharedHealth :=
  { s with
    blocks := s.blocks ++ [s.fresh c]
    upstreams := s.upstreams.insert c.upstream s.blocks.length
    held := none }

/-- The next slot is cloned under its lock; once all of them are copied the new block is installed. -/
def copy (s : SharedHealth) (c : Copying) : Option (SharedHealth × HealthProgress) :=
  let idx := c.copied.length
  match (s.upstreams.lookup c.upstream).bind fun b => (s.slot b idx).map fun slot => (b, slot) with
  | some (b, slot) =>
    match slot.held with
    | none => some (s.setSlot b idx { slot with held := some .cloning }, .locked)
    | some .cloning =>
      let c := { c with copied := c.copied ++ [slot.health] }
      some ({ s.setSlot b idx { slot with held := none } with held := some (.copying c) }, .locked)
    | some _ => none
  | none => some (s.install c, .done)

def skip (s : SharedHealth) (progress : HealthProgress) : Option (SharedHealth × HealthProgress) :=
  match progress with
  | .start => some (s, .done)
  | _ => none

/-- The step of an outcome, it works on the block that it found even if that is no longer the current one. -/
def record (s : SharedHealth) (upstream : String) (idx : Nat) (todo : SlotSection)
    (progress : HealthProgress)
    : Option (SharedHealth × HealthProgress) :=
  match progress with
  | .start =>
    if s.held.isSome then
      none
    else
      some (s, (s.lookup upstream idx).elim .done .found)
  | .found b =>
    match s.slot b idx with
    | some { health, held := none } => some (s.setSlot b idx { health, held := some todo }, .inside b)
    | _ => none
  | .inside b =>
    match s.slot b idx with
    | some { health, held := some todo } =>
      (todo.step health).map fun (health, held) =>
        (s.setSlot b idx { health, held }, if held.isSome then .inside b else .done)
    | _ => none
  | _ => none

def move (s : SharedHealth) (upstream : String) (addr : SocketAddr) (f : PeerHealth → PeerHealth)
    (progress : HealthProgress)
    : Option (SharedHealth × HealthProgress) :=
  match progress, s.held with
  | .start, none => some ({ s with held := some .moving }, .locked)
  | .locked, some .moving => some ({ s.modifyAddr upstream addr f with held := none }, .done)
  | _, _ => none

def reload (s : SharedHealth) (upstream : String) (addrs : List SocketAddr) (progress : HealthProgress)
    : Option (SharedHealth × HealthProgress) :=
  match progress, s.held with
  | .start, none => some ({ s with held := some (.copying { upstream, addrs }) }, .locked)
  | .locked, some (.copying c) => s.copy c
  | _, _ => none

end SharedHealth

namespace HealthTask

def spawn (call : HealthCall) : HealthTask := { call }

def step (s : SharedHealth) (t : HealthTask) : Option (SharedHealth × HealthProgress) :=
  match t.call with
  | .register upstream addrs => s.reload upstream addrs t.progress
  | .recordFailure upstream idx cfg nowMs =>
    if cfg.maxFails = 0 then
      s.skip t.progress
    else
      s.record upstream idx (.counting cfg nowMs) t.progress
  | .recordSuccess upstream idx nowMs => s.record upstream idx (.closing nowMs) t.progress
  | .incInFlight upstream addr => s.move upstream addr PeerHealth.incInFlight t.progress
  | .decInFlight upstream addr => s.move upstream addr PeerHealth.decInFlight t.progress

def act (s : SharedHealth) (t : HealthTask) (_ : Unit) : Option (SharedHealth × HealthTask) :=
  (t.step s).map fun (s, progress) => (s, { t with progress })

end HealthTask

abbrev HealthCalls := Pool SharedHealth HealthTask

abbrev HealthCalls.Event := Pool.Event HealthCall Unit

def HealthCalls.step : HealthCalls → Event → Option HealthCalls := Pool.step HealthTask.spawn HealthTask.act

def HealthCalls.start (active : AList fun _ : String × SocketAddr => ActivePeer) : HealthCalls :=
  { shared := SharedHealth.new active, threads := [] }

end OpenRusty
