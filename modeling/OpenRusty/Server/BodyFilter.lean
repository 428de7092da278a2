import OpenRusty.Wasm.Session.Basic

/-!
This module contains the body of a proxied response (`body_filter.rs`): it passes on the frames of the
peer, runs the body filter for every chunk, and ends with a last empty chunk and the log phase. Both
happen when the stream ends, fails or is dropped, whatever comes first.
-/

namespace OpenRusty

/-- The session of a request with the phases that were run in it, which are for the specification only. -/
structure Exchange (γ ω : Type) where
  session : RequestSession γ ω
  ran : List Phase := []

namespace Exchange

variable {γ ω : Type}

def runPhase (x : Exchange γ ω) (phase : Phase) (w : World ω) : Decision × Exchange γ ω × World ω :=
  match x.session.runPhase phase w with
  | (d, session, w) => (d, { session := session, ran := x.ran ++ [phase] }, w)

def runLog (x : Exchange γ ω) (w : World ω) : Exchange γ ω × World ω :=
  match x.runPhase .log w with
  | (_, x, w) => ({ x with session := x.session.takePhaseStats.2 }, w)

def runFilter (x : Exchange γ ω) (chunk : Bytes) (last : Bool) (w : World ω) : Exchange γ ω × World ω :=
  match runPhase { x with session := x.session.setBodyChunk chunk last } .bodyFilter w with
  | (_, x, w) => (x, w)

end Exchange

inductive Polled where
  | pending
  | data (chunk : Bytes)
  | trailers
  | error
  | ended
  deriving DecidableEq, Repr

structure FilteredBody (γ ω : Type) where
  exchange : Exchange γ ω
  -- whether the body of the peer is still there
  inner : Bool := true
  bytes : Nat := 0
  lastSent : Bool := false
  logDone : Bool := false

namespace FilteredBody

variable {γ ω : Type}

def sendLast (b : FilteredBody γ ω) (w : World ω) : FilteredBody γ ω × World ω :=
  if b.lastSent then
    (b, w)
  else
    match b.exchange.runFilter [] true w with
    | (exchange, w) => ({ b with exchange := exchange, lastSent := true }, w)

def log (b : FilteredBody γ ω) (w : World ω) : FilteredBody γ ω × World ω :=
  if b.logDone then
    (b, w)
  else
    match b.exchange.runLog w with
    | (exchange, w) => ({ b with exchange := exchange, logDone := true }, w)

def finalize (b : FilteredBody γ ω) (w : World ω) : FilteredBody γ ω × World ω :=
  match b.sendLast w with
  | (b, w) => b.log w

def pollFrame (b : FilteredBody γ ω) (polled : Polled) (w : World ω) : FilteredBody γ ω × World ω :=
  if b.inner then
    match polled with
    | .pending => (b, w)
    | .data chunk =>
      match b.exchange.runFilter chunk false w with
      | (exchange, w) => ({ b with exchange := exchange, bytes := b.bytes + chunk.length }, w)
    | .trailers => (b, w)
    | .error => finalize { b with inner := false } w
    | .ended => finalize { b with inner := false } w
  else
    (b, w)

def drop (b : FilteredBody γ ω) (w : World ω) : FilteredBody γ ω × World ω := b.finalize w

end FilteredBody

end OpenRusty
