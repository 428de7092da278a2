import OpenRusty.Core.Num
import OpenRusty.Core.ValidateLemmas
import OpenRusty.Lib.Fallible
import OpenRusty.Lib.Matching

/-!
This module contains the adoption of inherited listener sockets (`sd_listen.rs`): the activation that
the environment announces, the match of the sockets to the configured addresses by port, and the
listeners in the order of the configuration. The match looks at ports only, so listeners that share a
port get their sockets in the order in which they were inherited.
-/

namespace OpenRusty

def effectiveListeners (server : ServerConfig) : List ListenerConfig :=
  if server.listeners.isEmpty then
    [{ role := .inbound, listen := server.listen, http1Only := server.http1Only }]
  else
    server.listeners

def expectedAddrs (server : ServerConfig) : List SocketAddr :=
  (effectiveListeners server).map ListenerConfig.listen

namespace SdListen

structure Activation where
  fds : Nat
  names : List (Option String)
  deriving DecidableEq, Repr

def parseActivation (vars : String → Option String) (pid : Nat) : Option Activation :=
  match (vars "LISTEN_FDS").bind fun v => parseUnsigned 64 (trim v) with
  | none => none
  | some fds =>
    let listenPid := (vars "LISTEN_PID").bind fun v => parseUnsigned 32 (trim v)
    if fds = 0 ∨ listenPid ≠ some pid then
      none
    else
      let names :=
        match vars "LISTEN_FDNAMES" with
        | some raw => (splitChar ':' raw).map fun n => if n = "" then none else some n
        | none => []
      some { fds := fds, names := (names ++ List.replicate (fds - names.length) none).take fds }

/--
An inherited descriptor: what the system tells about it, and whether it lets the gateway make it non-
blocking and register it with the reactor.
-/
structure Socket where
  fd : Nat
  localAddr : Option SocketAddr
  setNonblocking : Bool := true
  fromStd : Bool := true
  deriving DecidableEq, Repr

inductive AdoptError where
  | invalidInput (text : String)
  | io
  | panicked
  deriving DecidableEq, Repr

def received (names : List (Option String)) (i : Nat) (port : BitVec 16) : String :=
  match (names[i]?).join with
  | some name =>
    "fd" ++ toString (3 + i) ++ "(" ++ name ++ ")=" ++ toString port.toNat
  | none => "fd" ++ toString (3 + i) ++ "=" ++ toString port.toNat

def mismatchMessage (inherited : List (BitVec 16)) (names : List (Option String))
    (expected : List SocketAddr) : String :=
  "socket activation mismatch: expected [" ++ ", ".intercalate (expected.map SocketAddr.toString)
    ++ "], received [" ++ ", ".intercalate (inherited.mapIdx (received names)) ++ "]"

def findUnused (inherited : List (BitVec 16)) (used : List Bool) (port : BitVec 16) : Option Nat :=
  (inherited.zip used).findIdx? fun x => !x.2 && x.1 == port

def matchLoop (inherited : List (BitVec 16)) (mismatch : String) (expected : List SocketAddr)
    (used : List Bool) (order : List Nat)
    : Except String (List Nat) :=
  match expected with
  | [] => if used.any fun u => !u then .error mismatch else .ok order
  | addr :: expected =>
    match findUnused inherited used addr.port with
    | some i => matchLoop inherited mismatch expected (used.set i true) (order ++ [i])
    | none => .error mismatch

def matchPorts (inherited : List (BitVec 16)) (names : List (Option String))
    (expected : List SocketAddr) : Except String (List Nat) :=
  matchLoop inherited (mismatchMessage inherited names expected) expected
    (inherited.map fun _ => false) []

def localPort (s : Socket) : Except AdoptError (BitVec 16) :=
  match s.localAddr with
  | some addr => .ok addr.port
  | none =>
    .error (.invalidInput ("inherited fd " ++ toString s.fd ++ " is not an IPv4/IPv6 TCP listener "
      ++ "(local address unavailable: unix or datagram socket?)"))

/-- Every socket is taken out of its slot. A slot that is empty already is a panic. -/
def handOver (sockets : List (Option Socket)) (order : List Nat) (listeners : List Socket)
    : Except AdoptError (List Socket) :=
  match order with
  | [] => .ok listeners
  | i :: order =>
    match sockets[i]? with
    | some (some l) =>
      if l.setNonblocking && l.fromStd then
        handOver (sockets.set i none) order (listeners ++ [l])
      else
        .error .io
    | _ => .error .panicked

def adoptFds (fds : List Socket) (names : List (Option String)) (expected : List SocketAddr)
    : Except AdoptError (List Socket) := do
  let ports ← fds.mapM localPort
  let order ← (matchPorts ports names expected).mapError .invalidInput
  handOver (fds.map some) order []

/-- What the process holds under a descriptor is `socketAt`. -/
def adopt (vars : String → Option String) (pid : Nat) (socketAt : Nat → Socket)
    (expected : List SocketAddr)
    : Except AdoptError (Option (List Socket)) :=
  match parseActivation vars pid with
  | none => .ok none
  | some activation =>
    (adoptFds ((List.range' 3 activation.fds).map socketAt) activation.names expected).map some

end SdListen

end OpenRusty
