import Mathlib.Data.List.AList
import Mathlib.Logic.Function.Basic
import OpenRusty.Core.Context
import OpenRusty.Core.Phase

/-!
This module contains the run of one phase across the plugin chain of a request (`session.rs`,
`runner.rs`). The session moves its state into the host data of an instance for the time of a call
and takes it back afterwards. What a WebAssembly module computes is a parameter: `γ` is the state of
an instance of a module and `ω` the part of the world that it can reach from inside a call.
-/

namespace OpenRusty

structure PeerView where
  name : String
  addr : String
  healthy : Bool
  deriving DecidableEq, Repr

inductive HeaderEdit where
  | set (name value : String)
  | del (name : String)
  deriving DecidableEq, Repr

inductive ReqEdit where
  | setUri (uri : String)
  | setQuery (query : String)
  | setHeader (name value : String)
  | delHeader (name : String)
  deriving DecidableEq, Repr

structure HostData where
  ctx : ReqCtx
  peers : List PeerView
  settings : List (String × String)
  respEdits : List HeaderEdit := []
  reqEdits : List ReqEdit := []
  respHeaders : List (String × String) := []
  respBody : Option Bytes := none
  reqBody : Bytes := []
  bodyChunk : Bytes := []
  bodyLast : Bool := false
  deriving DecidableEq, Repr

/-- How a call into WebAssembly can fail: the epoch deadline passed, or anything else. -/
inductive WasmError where
  | interrupt
  | other
  deriving DecidableEq, Repr

structure WasmModule (γ ω : Type) where
  instantiate (memoryMb : Nat) (hd : HostData) (outside : ω) : Except WasmError (γ × HostData) × ω
  onPhase (phase : Phase) (timeout : Nat) (guest : γ) (hd : HostData) (outside : ω)
    : Except WasmError Int × γ × HostData × ω

structure LoadedPlugin (γ ω : Type) where
  name : String
  module : WasmModule γ ω
  settings : List (String × String)
  timeout : Nat
  failPolicy : FailPolicy
  memoryMb : Nat

structure PluginRt (γ : Type) where
  guest : γ
  hostData : HostData

inductive ErrorKind where
  | trap
  | timeout
  | badCode (code : Int)
  deriving DecidableEq, Repr

inductive ErrorLabel where
  | trap
  | timeout
  | badCode
  deriving DecidableEq, Repr

inductive PhaseOutcome where
  | decision (d : Decision)
  | error (kind : ErrorKind)
  deriving DecidableEq, Repr

/-- What calls change beside the session: the world of the modules and the error counts of plugins. -/
structure World (ω : Type) where
  outside : ω
  errors : AList fun _ : String × ErrorLabel => Nat

variable {γ ω : Type}

def World.recordError (w : World ω) (plugin : String) (kind : ErrorLabel) : World ω :=
  { w with errors := w.errors.insert (plugin, kind) ((w.errors.lookup (plugin, kind)).getD 0 + 1) }

def WasmError.label (e : WasmError) : ErrorLabel :=
  match e with
  | .interrupt => .timeout
  | .other => .trap

def fallbackDecision (policy : FailPolicy) : Decision :=
  match policy with
  | .failOpen => .declined
  | .failClosed => .deny 503

namespace PluginRt

def runPhaseOutcome (plugin : LoadedPlugin γ ω) (rt : PluginRt γ) (phase : Phase) (w : World ω)
    : PhaseOutcome × PluginRt γ × World ω :=
  match plugin.module.onPhase phase plugin.timeout rt.guest rt.hostData w.outside with
  | (result, guest, hostData, outside) =>
    let rt := { guest, hostData }
    let w := { w with outside }
    match result with
    | .ok code =>
      match Decision.fromAbi code with
      | some d => (.decision d, rt, w)
      | none => (.error (.badCode code), rt, w.recordError plugin.name .badCode)
    | .error .interrupt => (.error .timeout, rt, w.recordError plugin.name .timeout)
    | .error .other => (.error .trap, rt, w.recordError plugin.name .trap)

def runPhase (plugin : LoadedPlugin γ ω) (rt : PluginRt γ) (phase : Phase) (w : World ω)
    : Decision × PluginRt γ × World ω :=
  match rt.runPhaseOutcome plugin phase w with
  | (.decision d, rt, w) => (d, rt, w)
  | (.error _, rt, w) => (fallbackDecision plugin.failPolicy, rt, w)

end PluginRt

structure SessionState where
  ctx : ReqCtx
  peers : List PeerView
  bodyChunk : Bytes := []
  bodyLast : Bool := false
  respHeaders : List (String × String) := []
  respBody : Option Bytes := none
  reqBody : Bytes := []
  phaseCalls : Phase → Nat := fun _ => 0

structure PluginSlot (γ ω : Type) where
  plugin : LoadedPlugin γ ω
  rt : Option (PluginRt γ)

structure RequestSession (γ ω : Type) where
  slots : List (PluginSlot γ ω)
  state : SessionState

namespace SessionState

def recordPhaseTime (s : SessionState) (phase : Phase) : SessionState :=
  { s with phaseCalls := Function.update s.phaseCalls phase (s.phaseCalls phase + 1) }

def push (s : SessionState) (hd : HostData) : SessionState × HostData :=
  ({ s with ctx := .empty, peers := [], respHeaders := [], reqBody := [], bodyChunk := [] },
    { hd with
      ctx := s.ctx
      peers := s.peers
      respHeaders := s.respHeaders
      reqBody := s.reqBody
      bodyChunk := s.bodyChunk
      bodyLast := s.bodyLast })

def pull (s : SessionState) (hd : HostData) : SessionState × HostData :=
  let s := { s with
    ctx := hd.ctx
    peers := hd.peers
    respHeaders := hd.respHeaders
    reqBody := hd.reqBody
    bodyChunk := hd.bodyChunk
    bodyLast := hd.bodyLast }
  let hd := { hd with ctx := .empty, peers := [], respHeaders := [], reqBody := [], bodyChunk := [] }
  if hd.respBody.isSome then
    ({ s with respBody := hd.respBody }, { hd with respBody := none })
  else
    (s, hd)

end SessionState

namespace PluginSlot

def instantiateOne (plugin : LoadedPlugin γ ω) (w : World ω)
    : Except WasmError (PluginRt γ) × World ω :=
  let host := { ctx := .empty, peers := [], settings := plugin.settings }
  match plugin.module.instantiate plugin.memoryMb host w.outside with
  | (.ok (guest, hostData), outside) => (.ok { guest, hostData }, { w with outside })
  | (.error e, outside) => (.error e, { w with outside })

def ensure (slot : PluginSlot γ ω) (w : World ω) : Except WasmError (PluginRt γ) × World ω :=
  match slot.rt with
  | some rt => (.ok rt, w)
  | none => instantiateOne slot.plugin w

def call (slot : PluginSlot γ ω) (rt : PluginRt γ) (phase : Phase) (s : SessionState) (w : World ω)
    : Decision × PluginSlot γ ω × SessionState × World ω :=
  match s.push rt.hostData with
  | (s, hd) =>
    match PluginRt.runPhase slot.plugin { rt with hostData := hd } phase w with
    | (decision, rt, w) =>
      match s.pull rt.hostData with
      | (s, hd) =>
        (decision, { slot with rt := some { rt with hostData := hd } }, s.recordPhaseTime phase, w)

def run (slot : PluginSlot γ ω) (phase : Phase) (s : SessionState) (w : World ω)
    : Decision × PluginSlot γ ω × SessionState × World ω :=
  match slot.ensure w with
  | (.ok rt, w) => slot.call rt phase s w
  | (.error e, w) =>
    (fallbackDecision slot.plugin.failPolicy, slot, s.recordPhaseTime phase,
      w.recordError slot.plugin.name e.label)

end PluginSlot

namespace RequestSession

def new (plugins : List (LoadedPlugin γ ω)) (ctx : ReqCtx) (peers : List PeerView)
    : RequestSession γ ω :=
  { slots := plugins.map fun plugin => { plugin, rt := none }, state := { ctx, peers } }

def modifyCtx (s : RequestSession γ ω) (f : ReqCtx → ReqCtx) : RequestSession γ ω :=
  { s with state := { s.state with ctx := f s.state.ctx } }

def setBodyChunk (s : RequestSession γ ω) (chunk : Bytes) (last : Bool) : RequestSession γ ω :=
  { s with state := { s.state with bodyChunk := chunk, bodyLast := last } }

def setRespHeaders (s : RequestSession γ ω) (headers : List (String × String))
    : RequestSession γ ω :=
  { s with state := { s.state with respHeaders := headers } }

def setReqBody (s : RequestSession γ ω) (body : Bytes) : RequestSession γ ω :=
  { s with state := { s.state with reqBody := body } }

def mapHostData (s : RequestSession γ ω) (f : HostData → HostData) : RequestSession γ ω :=
  { s with slots := s.slots.map fun slot =>
      { slot with rt := slot.rt.map fun rt => { rt with hostData := f rt.hostData } } }

def takeRespBody (s : RequestSession γ ω) : Option Bytes × RequestSession γ ω :=
  let s' := s.mapHostData fun hd => { hd with respBody := none }
  (s.state.respBody.filter fun b => !b.isEmpty,
    { s' with state := { s'.state with respBody := none } })

def takeHeaderEdits (s : RequestSession γ ω) : List HeaderEdit × RequestSession γ ω :=
  (s.slots.flatMap fun slot => slot.rt.elim [] fun rt => rt.hostData.respEdits,
    s.mapHostData fun hd => { hd with respEdits := [] })

def takeReqEdits (s : RequestSession γ ω) : List ReqEdit × RequestSession γ ω :=
  (s.slots.flatMap fun slot => slot.rt.elim [] fun rt => rt.hostData.reqEdits,
    s.mapHostData fun hd => { hd with reqEdits := [] })

def takePhaseStats (s : RequestSession γ ω) : List (String × Nat) × RequestSession γ ω :=
  ((Phase.all.filter fun phase => s.state.phaseCalls phase != 0).map fun phase =>
      (phase.name, s.state.phaseCalls phase),
    { s with state := { s.state with phaseCalls := fun _ => 0 } })

def runPhase (s : RequestSession γ ω) (phase : Phase) (w : World ω)
    : Decision × RequestSession γ ω × World ω :=
  match go phase .declined s.slots s.state w with
  | (d, slots, state, w) => (d, { slots, state }, w)
where
  go (phase : Phase) (last : Decision) (slots : List (PluginSlot γ ω)) (s : SessionState)
      (w : World ω)
      : Decision × List (PluginSlot γ ω) × SessionState × World ω :=
    match slots with
    | [] => (last, [], s, w)
    | slot :: slots =>
      match slot.run phase s w with
      | (decision, slot, s, w) =>
        if decision.isTerminal && phase != .log then
          (decision, slot :: slots, s, w)
        else
          match go phase decision slots s w with
          | (d, slots, s, w) => (d, slot :: slots, s, w)

end RequestSession

/-- What the server does with a session; `elsewhere` is what happens to the world in the meantime. -/
inductive SessionOp (ω : Type) where
  | modifyCtx (f : ReqCtx → ReqCtx)
  | setBodyChunk (chunk : Bytes) (last : Bool)
  | setRespHeaders (headers : List (String × String))
  | setReqBody (body : Bytes)
  | takeRespBody
  | takeHeaderEdits
  | takeReqEdits
  | takePhaseStats
  | runPhase (phase : Phase)
  | elsewhere (w : World ω)

def RequestSession.step (x : RequestSession γ ω × World ω) (op : SessionOp ω)
    : Option (RequestSession γ ω × World ω) :=
  match op with
  | .modifyCtx f => some (x.1.modifyCtx f, x.2)
  | .setBodyChunk chunk last => some (x.1.setBodyChunk chunk last, x.2)
  | .setRespHeaders headers => some (x.1.setRespHeaders headers, x.2)
  | .setReqBody body => some (x.1.setReqBody body, x.2)
  | .takeRespBody => some (x.1.takeRespBody.2, x.2)
  | .takeHeaderEdits => some (x.1.takeHeaderEdits.2, x.2)
  | .takeReqEdits => some (x.1.takeReqEdits.2, x.2)
  | .takePhaseStats => some (x.1.takePhaseStats.2, x.2)
  | .runPhase phase => some (x.1.runPhase phase x.2).2
  | .elsewhere w => some (x.1, w)

end OpenRusty
