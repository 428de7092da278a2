import OpenRusty.Core.Config
import OpenRusty.Lib.Machine
import OpenRusty.Proxy.Detect

/-!
This module contains the handling of one intercepted connection (`transparent.rs`, `egress.rs`) as a state
machine: the client sends and closes at any time, the handler routes, sniffs, dials and copies. What its
environment decides (how many bytes a read returns, the detection deadline, the result of a dial, an
error while copying) comes with the event.
-/

namespace OpenRusty

namespace Transparent

open Detect

inductive ProtoMode where
  | auto
  | forceHttp1
  | forceHttp2
  deriving DecidableEq, Repr

def ProtoMode.ofHttp1Only (http1Only : Bool) : ProtoMode := if http1Only then .forceHttp1 else .auto

section route

inductive RejectReason where
  | loop
  | noOriginalDst
  deriving DecidableEq, Repr

inductive Step where
  | degradeHttp
  | sniff (dst : SocketAddr)
  | dial (dst : SocketAddr)
  | reject (reason : RejectReason)
  deriving DecidableEq, Repr

def routePre (role : ListenerRole) (origDst : Option SocketAddr) (ownPorts : List (BitVec 16)) : Step :=
  match origDst with
  | some dst =>
    if isLoopback dst ownPorts then
      .reject .loop
    else if role = .outbound then
      .dial dst
    else
      .sniff dst
  | none => if role = .outbound then .reject .noOriginalDst else .degradeHttp

inductive HttpStep where
  | serveHttp (mode : ProtoMode)
  | tunnel
  deriving DecidableEq, Repr

def routeHttp (protocol : Protocol) : HttpStep :=
  match protocol with
  | .h1 => .serveHttp .forceHttp1
  | .h2 => .serveHttp .forceHttp2
  | .opaqueBytes => .tunnel

inductive EgressDenyReason where
  | modeDeny
  | notHttp
  | tlsPort
  deriving DecidableEq, Repr

inductive EgressStep where
  | orig (dst : SocketAddr)
  | sniff (dst : SocketAddr)
  | gateway (dst : SocketAddr)
  | deny (reason : EgressDenyReason)
  deriving DecidableEq, Repr

def routeEgress (mode : EgressMode) (protocol : Option Protocol) (origDst : SocketAddr) : EgressStep :=
  match mode with
  | .direct => .orig origDst
  | .deny => .deny .modeDeny
  | .gateway =>
    match protocol with
    | none => .sniff origDst
    | some .opaqueBytes => .deny .notHttp
    | some _ => if origDst.port = 443 then .deny .tlsPort else .gateway origDst

end route

inductive Io where
  | plain
  | prefixed (head : Bytes) (pos : Nat)
  deriving DecidableEq, Repr

namespace Io

def head (io : Io) : Bytes :=
  match io with
  | .plain => []
  | .prefixed head pos => head.drop pos

/-- A read into a buffer with room for `remaining` bytes: what it returns, and what is left on the socket. -/
def pollRead (io : Io) (remaining : Nat) (inner : Bytes) : Bytes × Io × Bytes :=
  match io with
  | .plain => (inner.take remaining, .plain, inner.drop remaining)
  | .prefixed head pos =>
    if pos < head.length then
      let n := min remaining (head.length - pos)
      ((head.drop pos).take n, .prefixed head (pos + n), inner)
    else
      (inner.take remaining, .prefixed head pos, inner.drop remaining)

end Io

inductive Sniffer where
  | inbound
  | egress
  deriving DecidableEq, Repr

inductive Target where
  | original (addr : SocketAddr)
  | gateway (addr : SocketAddr)
  deriving DecidableEq, Repr

inductive Phase where
  | accepted
  | sniffing (sniffer : Sniffer) (dst : SocketAddr) (buf : Bytes)
  | dialling (target : Target) (io : Io)
  /-- The bytes of `buf` have been read from the client and not yet written to the target. -/
  | copying (io : Io) (buf : Bytes)
  | copied
  | aborted
  | serving (mode : ProtoMode) (io : Io)
  | closed
  | unreachable
  deriving DecidableEq, Repr

structure Conn where
  -- All that the client has sent, and the part of it that nobody has read.
  sent : Bytes := []
  unread : Bytes := []
  finished : Bool := false
  phase : Phase := .accepted
  dialled : Option Target := none
  reached : Option Target := none
  delivered : Bytes := []
  -- The counters that were incremented, by role and outcome.
  recorded : List (String × String) := []
  deriving DecidableEq, Repr

structure Intercept where
  role : ListenerRole
  http1Only : Bool
  origDst : Option SocketAddr
  ownPorts : List (BitVec 16)
  mode : EgressMode
  gateway : Option SocketAddr
  deriving DecidableEq, Repr

namespace Conn

def recordTransparent (s : Conn) (role : ListenerRole) (outcome : String) : Conn :=
  { s with recorded := s.recorded ++ [(role.asStr, outcome)] }

def close (s : Conn) : Conn := { s with phase := .closed }

def dial (s : Conn) (target : Target) (io : Io) : Conn :=
  { s with phase := .dialling target io, dialled := some target }

def serve (s : Conn) (mode : ProtoMode) (io : Io) : Conn := { s with phase := .serving mode io }

end Conn

section handle

variable (c : Intercept)

def rejectOutcome (reason : RejectReason) : String :=
  match reason with
  | .loop => "loop_rejected"
  | .noOriginalDst => "no_orig_dst"

def runOutbound (dst : SocketAddr) (s : Conn) : Conn :=
  match routeEgress c.mode none dst with
  | .orig dst => (s.recordTransparent .outbound "egress_direct").dial (.original dst) .plain
  | .deny _ => (s.recordTransparent .outbound "egress_deny").close
  | .sniff dst => { s with phase := .sniffing .egress dst [] }
  | .gateway _ => { s with phase := .unreachable }

def forwardToGateway (io : Io) (s : Conn) : Conn :=
  match c.gateway with
  | some gateway => s.dial (.gateway gateway) io
  | none => (s.recordTransparent .outbound "egress_gateway_fail").close

def egressDetected (dst : SocketAddr) (protocol : Protocol) (io : Io) (s : Conn) : Conn :=
  match routeEgress c.mode (some protocol) dst with
  | .gateway _ => forwardToGateway c io s
  | .deny _ => (s.recordTransparent .outbound "egress_deny").close
  | _ => { s with phase := .unreachable }

def inboundDetected (dst : SocketAddr) (protocol : Protocol) (io : Io) (s : Conn) : Conn :=
  match routeHttp protocol with
  | .serveHttp mode => (s.recordTransparent c.role "http").serve mode io
  | .tunnel => (s.recordTransparent c.role "tunnel").dial (.original dst) io

def handleConn (s : Conn) : Conn :=
  match routePre c.role c.origDst c.ownPorts with
  | .reject reason => (s.recordTransparent c.role (rejectOutcome reason)).close
  | .degradeHttp => (s.recordTransparent c.role "http").serve (.ofHttp1Only c.http1Only) .plain
  | .dial dst => runOutbound c dst s
  | .sniff dst => { s with phase := .sniffing .inbound dst [] }

def detected (sniffer : Sniffer) (dst : SocketAddr) (probe : Probe) (s : Conn) : Conn :=
  match probe with
  | .reading buf => { s with phase := .sniffing sniffer dst buf }
  | .settled protocol buf =>
    match sniffer with
    | .inbound => inboundDetected c dst protocol (.prefixed buf 0) s
    | .egress => egressDetected c dst protocol (.prefixed buf 0) s
  | .failed _ => s.close

def dialDone (target : Target) (io : Io) (ok : Bool) (s : Conn) : Conn :=
  match target, ok with
  | .original _, true => { s with phase := .copying io [], reached := some target }
  | .original _, false => s.close
  | .gateway _, true =>
    { s.recordTransparent .outbound "egress_gateway_ok" with phase := .copying io [], reached := some target }
  | .gateway _, false => (s.recordTransparent .outbound "egress_gateway_fail").close

inductive Event where
  -- The client.
  | send (bytes : Bytes)
  | finish
  -- The handler.
  | start
  | read (n : Nat)
  | readEof
  | readError
  | deadline
  | dialDone (ok : Bool)
  | copyRead (remaining : Nat)
  | copyWrite (n : Nat)
  | copyEof
  | copyError
  deriving DecidableEq, Repr

def step (s : Conn) (e : Event) : Option Conn :=
  match e, s.phase with
  | .send bytes, _ =>
    if s.finished then none else some { s with sent := s.sent ++ bytes, unread := s.unread ++ bytes }
  | .finish, _ => some { s with finished := true }
  | .start, .accepted => some (handleConn c s)
  | .read n, .sniffing sniffer dst buf =>
    if 0 < n ∧ n ≤ readChunk ∧ n ≤ s.unread.length then
      some (detected c sniffer dst (detectStep buf (.data (s.unread.take n)))
        { s with unread := s.unread.drop n })
    else
      none
  | .readEof, .sniffing sniffer dst buf =>
    if s.finished ∧ s.unread = [] then some (detected c sniffer dst (detectStep buf .eof) s) else none
  | .readError, .sniffing sniffer dst buf => some (detected c sniffer dst (detectStep buf .error) s)
  | .deadline, .sniffing sniffer dst buf => some (detected c sniffer dst (detectStep buf .deadline) s)
  | .dialDone ok, .dialling target io => some (dialDone target io ok s)
  | .copyRead remaining, .copying io buf =>
    match io.pollRead remaining s.unread with
    | (chunk, io, unread) =>
      if chunk = [] then none else some { s with phase := .copying io (buf ++ chunk), unread := unread }
  | .copyWrite n, .copying io buf =>
    some { s with phase := .copying io (buf.drop n), delivered := s.delivered ++ buf.take n }
  -- The end of the client's stream shuts the target's side down, once all is written.
  | .copyEof, .copying io buf =>
    if s.finished ∧ s.unread = [] ∧ io.head = [] ∧ buf = [] then some { s with phase := .copied } else none
  | .copyError, .copying _ _ => some { s with phase := .aborted }
  | _, _ => none

end handle

end Transparent

end OpenRusty
