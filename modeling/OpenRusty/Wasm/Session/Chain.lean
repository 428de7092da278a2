import OpenRusty.Wasm.Session.Basic

/-!
This module contains the meaning of a phase: a left fold that runs the plugins in order on one
session state. A plugin acts directly on that state, an instance keeps only what is its own, and the
run of the session, which moves the state in and out of the instances, computes the same fold.
-/

namespace OpenRusty

variable {γ ω : Type}

structure Instance (γ : Type) where
  guest : γ
  settings : List (String × String)
  respEdits : List HeaderEdit
  reqEdits : List ReqEdit

structure ChainSlot (γ ω : Type) where
  plugin : LoadedPlugin γ ω
  inst : Option (Instance γ)

namespace Instance

def ofHostData (guest : γ) (hd : HostData) : Instance γ :=
  { guest, settings := hd.settings, respEdits := hd.respEdits, reqEdits := hd.reqEdits }

def view (inst : Instance γ) (s : SessionState) (written : Option Bytes) : HostData where
  ctx := s.ctx
  peers := s.peers
  settings := inst.settings
  respEdits := inst.respEdits
  reqEdits := inst.reqEdits
  respHeaders := s.respHeaders
  respBody := written
  reqBody := s.reqBody
  bodyChunk := s.bodyChunk
  bodyLast := s.bodyLast

end Instance

def SessionState.leftBy (s : SessionState) (hd : HostData) : SessionState where
  ctx := hd.ctx
  peers := hd.peers
  bodyChunk := hd.bodyChunk
  bodyLast := hd.bodyLast
  respHeaders := hd.respHeaders
  respBody := hd.respBody.or s.respBody
  reqBody := hd.reqBody
  phaseCalls := s.phaseCalls

structure Invocation (γ ω : Type) where
  outcome : Except ErrorLabel Decision
  inst : Option (Instance γ)
  state : SessionState
  world : World ω

def Invocation.loggedWorld (i : Invocation γ ω) (plugin : String) : World ω :=
  match i.outcome with
  | .ok _ => i.world
  | .error kind => i.world.recordError plugin kind

namespace LoadedPlugin

def outcomeOf (result : Except WasmError Int) : Except ErrorLabel Decision :=
  match result with
  | .ok code => (Decision.fromAbi code).elim (.error .badCode) .ok
  | .error e => .error e.label

def call (plugin : LoadedPlugin γ ω) (phase : Phase) (inst : Instance γ) (written : Option Bytes)
    (s : SessionState) (w : World ω)
    : Invocation γ ω :=
  match plugin.module.onPhase phase plugin.timeout inst.guest (inst.view s written) w.outside with
  | (result, guest, hd, outside) =>
    { outcome := outcomeOf result
      inst := some (.ofHostData guest hd)
      state := s.leftBy hd
      world := { w with outside } }

def invoke (plugin : LoadedPlugin γ ω) (phase : Phase) (inst : Option (Instance γ))
    (s : SessionState) (w : World ω)
    : Invocation γ ω :=
  match inst with
  | some inst => plugin.call phase inst none s w
  | none =>
    let host := { ctx := .empty, peers := [], settings := plugin.settings }
    match plugin.module.instantiate plugin.memoryMb host w.outside with
    | (.ok (guest, hd), outside) =>
      plugin.call phase (.ofHostData guest hd) hd.respBody s { w with outside }
    | (.error e, outside) =>
      { outcome := .error e.label, inst := none, state := s, world := { w with outside } }

def contribution (plugin : LoadedPlugin γ ω) (outcome : Except ErrorLabel Decision) : Decision :=
  match outcome, plugin.failPolicy with
  | .ok d, _ => d
  | .error _, .failClosed => .deny 503
  | .error _, .failOpen => .declined

end LoadedPlugin

structure Chain (γ ω : Type) where
  slots : List (ChainSlot γ ω)
  state : SessionState
  world : World ω
  last : Decision

namespace Chain

def stopped (c : Chain γ ω) (phase : Phase) : Bool := c.last.isTerminal && phase != .log

def step (phase : Phase) (c : Chain γ ω) (slot : ChainSlot γ ω) : Chain γ ω :=
  if c.stopped phase then
    { c with slots := c.slots ++ [slot] }
  else
    let r := slot.plugin.invoke phase slot.inst c.state c.world
    { slots := c.slots ++ [{ slot with inst := r.inst }]
      state := r.state.recordPhaseTime phase
      world := r.loggedWorld slot.plugin.name
      last := slot.plugin.contribution r.outcome }

def run (phase : Phase) (slots : List (ChainSlot γ ω)) (s : SessionState) (w : World ω)
    : Chain γ ω :=
  slots.foldl (step phase) { slots := [], state := s, world := w, last := .declined }

theorem foldl_step_of_stopped {phase : Phase} {c : Chain γ ω} (h : c.stopped phase = true)
    (slots : List (ChainSlot γ ω))
    : slots.foldl (step phase) c = { c with slots := c.slots ++ slots } := by
  induction slots generalizing c with
  | nil => simp
  | cons slot slots ih =>
    rw [List.foldl_cons, step, if_pos h]
    rw [ih (by exact h)]
    simp

end Chain

end OpenRusty
