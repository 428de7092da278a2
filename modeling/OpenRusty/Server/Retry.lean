import Mathlib.Data.List.Dedup
import OpenRusty.Server.Lifecycle

/-!
This module contains the attempts of one request on their own (`pipeline/mod.rs`, `ws.rs`): a run of the
attempt loop in a server whose state can be any other one at every step, the plugins and the outcomes of the
attempts included, and what such a run owes to the peers.
-/

namespace OpenRusty

variable {γ ω : Type}

/-- A module that leaves the peers alone that the request has tried, there is no call of the host for them. -/
def WasmModule.KeepsTried (module : WasmModule γ ω) : Prop :=
  ∀ phase timeout guest hd outside,
    (module.onPhase phase timeout guest hd outside).2.2.1.ctx.tried = hd.ctx.tried

def RequestSession.KeepsTried (s : RequestSession γ ω) : Prop :=
  ∀ slot ∈ s.slots, slot.plugin.module.KeepsTried

structure AttemptLoop (γ ω : Type) where
  request : Request γ ω
  -- how the attempts ended, in their order
  outcomes : List Outcome := []

def Input.failsLate (x : Input) : Bool :=
  match x with
  | .outcome (.answered _) => false
  | .outcome (.failed .connect) => false
  | .outcome _ => true
  | _ => false

def Request.ends (r : Request γ ω) (x : Input) : List Outcome :=
  match r.stage, x with
  | .wait _, .outcome o => [o]
  | _, _ => []

def Request.MayResend (r : Request γ ω) (o : Outcome) : Prop :=
  (isIdempotent r.method = false → o = .failed .connect)
    ∧ (r.kind = .http → o = .timedOut → isIdempotent r.method = true ∧ r.up.retryOnTimeout = true)

def Request.budget (r : Request γ ω) : Nat :=
  match r.kind with
  | .http => r.up.retries + 1
  | .websocket => r.up.addrs.dedup.length

namespace AttemptLoop

def step (l : AttemptLoop γ ω) (e : AppState ω × Input) : Option (AttemptLoop γ ω) :=
  (l.request.act e.1 e.2).map fun y => { request := y.2, outcomes := l.outcomes ++ l.request.ends e.2 }

/-- A handshake of a method that is not idempotent does not fail once it is connected. -/
def HandshakeConnects (l : AttemptLoop γ ω) (e : AppState ω × Input) : Prop :=
  l.request.kind = .websocket → e.2.failsLate = true → isIdempotent l.request.method = true

instance (l : AttemptLoop γ ω) (e : AppState ω × Input) : Decidable (l.HandshakeConnects e) :=
  inferInstanceAs (Decidable (_ → _))

structure Disciplined (l : AttemptLoop γ ω) : Prop where
  nodup : l.request.acquired.Nodup
  bounded : l.request.acquired.length ≤ l.request.budget
  paired : l.outcomes.length ≤ l.request.acquired.length
    ∧ l.request.acquired.length ≤ l.outcomes.length + 1
  resent : ∀ j, j + 1 < l.request.acquired.length → ∃ o, l.outcomes[j]? = some o ∧ l.request.MayResend o

end AttemptLoop

end OpenRusty
