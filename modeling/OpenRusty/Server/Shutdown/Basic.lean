import OpenRusty.Lib.Machine
import OpenRusty.Lib.WatchCell

/-!
This module contains the shutdown of the gateway (`shutdown.rs`) with the parties it waits for: the accept
loops (`h2c.rs`, `transparent.rs`, `tls/accept.rs`, which differ only in what they do with a connection) and
the tasks of the accepted connections. An event is one step of one of them between two accesses to what they
share, the signal and the counter of the connections; what a socket, a peer or a clock does is up to the event.
-/

namespace OpenRusty

namespace Shutdown

def isDraining (signal : WatchCell Bool) (seen : Nat) : Bool := signal.value || (signal.hasChanged seen).isNone

inductive LoopStatus where
  | starting
  | selecting
  /-- The listener has handed out a stream that is not counted yet -/
  | accepted
  -- what `settle` gives for the handle of the task
  | ended (ok : Bool)
  deriving DecidableEq

structure AcceptLoop where
  seen : Nat
  status : LoopStatus := .starting
  deriving DecidableEq

inductive ConnStatus where
  /-- From the spawn of the task to `drive`: nothing, a handshake or the detection of the protocol -/
  | opening
  | driven (shutting : Bool)
  | tunneled
  -- served to the end, and still counted
  | served
  | released
  /-- The task has panicked, nobody takes it off the counter -/
  | lost
  deriving DecidableEq

structure Conn where
  seen : Nat
  status : ConnStatus := .opening
  /-- How often `graceful_shutdown` was called on the connection -/
  drains : Nat := 0
  deriving DecidableEq

/-- The durations are left out. -/
structure ShutdownReport where
  drained : Nat
  forced : Nat
  timedOut : Bool
  taskErrors : Nat
  deriving DecidableEq

inductive Phase where
  | serving
  | loaded (fast : Bool) (atSignal : Nat)
  | settling (fast : Bool) (atSignal next taskErrors : Nat)
  | polling (atSignal taskErrors : Nat)
  | waited (fast : Bool) (atSignal : Nat) (timedOut : Bool) (taskErrors : Nat)
  | reported (fast : Bool) (report : ShutdownReport)
  deriving DecidableEq

/-- The counter is a `Nat`: every connection that it counts has a socket of its own. -/
structure Gateway where
  signal : WatchCell Bool := { value := false }
  inFlight : Nat := 0
  loops : List AcceptLoop
  conns : List Conn := []
  phase : Phase := .serving
  deriving DecidableEq

inductive LoopEvent where
  -- the first poll; `addrOk` is whether the listener knows its address
  | boot (addrOk : Bool)
  | changed
  | accept
  | acceptError
  | count
  | panic
  deriving DecidableEq

inductive ConnEvent where
  | drive
  | tunnel
  | changed
  | done
  | release
  | panic
  deriving DecidableEq

inductive RunEvent where
  | call (fast : Bool)
  | send
  | settle
  | poll
  | expire
  | summary
  deriving DecidableEq

inductive Event where
  | loop (i : Nat) (e : LoopEvent)
  | conn (j : Nat) (e : ConnEvent)
  | run (e : RunEvent)
  -- `POST /openrusty/shutdown`
  | endpoint
  -- an embedder lets go of the sender instead of calling `run`
  | dropSender
  deriving DecidableEq

def serveListener (signal : WatchCell Bool) (l : AcceptLoop) (e : LoopEvent) : Option (AcceptLoop × Option Conn) :=
  match l.status, e with
  | .starting, .boot addrOk =>
    if !addrOk then
      some ({ l with status := .ended false }, none)
    else if isDraining signal l.seen then
      some ({ l with status := .ended true }, none)
    else
      some ({ l with status := .selecting }, none)
  | .selecting, .changed =>
    (signal.changed l.seen).map fun r =>
      if !r.1 || signal.value then
        ({ seen := r.2, status := .ended true }, none)
      else
        -- not our flip; keep serving
        ({ l with seen := r.2 }, none)
  | .selecting, .accept => some ({ l with status := .accepted }, none)
  | .selecting, .acceptError => some (l, none)
  | .accepted, .count => some ({ l with status := .selecting }, some { seen := l.seen })
  | .ended _, _ => none
  | _, .panic => some ({ l with status := .ended false }, none)
  | _, _ => none

def serveConn (signal : WatchCell Bool) (c : Conn) (e : ConnEvent) : Option Conn :=
  match c.status, e with
  | .opening, .drive => some { c with status := .driven (isDraining signal c.seen) }
  | .opening, .tunnel => some { c with status := .tunneled }
  | .driven false, .changed =>
    (signal.changed c.seen).map fun r => { seen := r.2, status := .driven true, drains := c.drains + 1 }
  | .opening, .done | .driven _, .done | .tunneled, .done => some { c with status := .served }
  | .served, .release => some { c with status := .released }
  | .opening, .panic | .driven _, .panic | .tunneled, .panic => some { c with status := .lost }
  | _, _ => none

def settle (l : AcceptLoop) : Option Bool :=
  match l.status with
  | .ended ok => some ok
  | _ => none

def summary (fast : Bool) (atSignal remaining : Nat) (timedOut : Bool) (taskErrors : Nat) : ShutdownReport where
  drained := atSignal - remaining
  forced := if fast || timedOut then remaining else 0
  timedOut := timedOut
  taskErrors := taskErrors

def exitCode (report : ShutdownReport) : Nat := if report.taskErrors > 0 then 1 else 0

namespace Gateway

/-- Both `run` and `run_fast`: the second one does not wait for the counter, and there is no timeout around it. -/
def runStep (g : Gateway) (e : RunEvent) : Option Gateway :=
  match g.phase, e with
  | .serving, .call fast =>
    if g.signal.closed then none else some { g with phase := .loaded fast g.inFlight }
  | .loaded fast atSignal, .send =>
    some { g with signal := g.signal.send true, phase := .settling fast atSignal 0 0 }
  | .settling fast atSignal next taskErrors, .settle =>
    match g.loops[next]? with
    | some l =>
      (settle l).map fun ok =>
        { g with phase := .settling fast atSignal (next + 1) (if ok then taskErrors else taskErrors + 1) }
    | none =>
      if fast then
        some { g with phase := .waited true atSignal false taskErrors }
      else
        some { g with phase := .polling atSignal taskErrors }
  | .polling atSignal taskErrors, .poll =>
    if g.inFlight > 0 then some g else some { g with phase := .waited false atSignal false taskErrors }
  | .settling false atSignal _ taskErrors, .expire | .polling atSignal taskErrors, .expire =>
    some { g with phase := .waited false atSignal true taskErrors }
  | .waited fast atSignal timedOut taskErrors, .summary =>
    some { g with phase := .reported fast (summary fast atSignal g.inFlight timedOut taskErrors) }
  | _, _ => none

def step (g : Gateway) (e : Event) : Option Gateway :=
  match e with
  | .loop i e =>
    g.loops[i]?.bind fun l =>
      (serveListener g.signal l e).map fun r =>
        { g with
          loops := g.loops.set i r.1
          conns := g.conns ++ r.2.toList
          inFlight := g.inFlight + r.2.toList.length }
  | .conn j e =>
    g.conns[j]?.bind fun c =>
      (serveConn g.signal c e).map fun c' =>
        { g with
          conns := g.conns.set j c'
          inFlight := if e = .release then g.inFlight - 1 else g.inFlight }
  | .run e => g.runStep e
  | .endpoint => if g.signal.closed then none else some { g with signal := g.signal.send true }
  | .dropSender => if g.phase = .serving then some { g with signal := g.signal.close } else none

/-- At the start `listeners::spawn` has started an accept loop for every socket. -/
def init (sockets : Nat) : Gateway where
  loops := List.replicate sockets { seen := 0 }

/-- What `GET /openrusty/ready` answers from; the receiver of the state has seen nothing. -/
def draining (g : Gateway) : Bool := isDraining g.signal 0

end Gateway

end Shutdown

end OpenRusty
