import OpenRusty.Wasm.Respond
import OpenRusty.Wasm.Session.Refinement

/-!
This module contains the run of a dynamic module for one request (`dynamic.rs`): a session with the
module as its only plugin, the phases up to a terminal decision, and the outcome that the server turns
into a response. How the module is found and compiled is not part of it.
-/

namespace OpenRusty

structure DynOutcome where
  status : Nat
  body : Option Bytes
  headers : List (String × String)
  error : Option String
  deriving DecidableEq, Repr

def hasBody (body : Option Bytes) : Bool := body.any fun b => !b.isEmpty

def DynOutcome.ofRun (terminal : Option Decision) (bodyThen body : Option Bytes)
    (headers : List (String × String)) (edits : List HeaderEdit)
    : DynOutcome :=
  let (status, error) :=
    match terminal with
    | some (.deny status) => (status, none)
    | some .done => (if hasBody bodyThen then 200 else 204, none)
    | _ => (500, some "dynamic module produced no response")
  let status := if status == 204 && hasBody body then 200 else status
  { status := status
    body := body.filter fun b => !b.isEmpty
    headers := finalHeaders headers edits
    error := error }

structure DynRun (γ ω : Type) where
  terminal : Option Decision
  decided : RequestSession γ ω
  finished : RequestSession γ ω
  world : World ω

namespace DynRun

variable {γ ω : Type}

def preProxyPhases : List Phase := [.postRead, .rewrite, .access, .content]

def untilTerminal (s : RequestSession γ ω) (w : World ω) (phases : List Phase)
    : Option Decision × RequestSession γ ω × World ω :=
  match phases with
  | [] => (none, s, w)
  | phase :: phases =>
    match s.runPhase phase w with
    | (d, s, w) => if d.isTerminal then (some d, s, w) else untilTerminal s w phases

def run (plugin : LoadedPlugin γ ω) (ctx : ReqCtx) (body : Bytes) (w : World ω) : DynRun γ ω :=
  let s := (RequestSession.new [plugin] ctx []).setReqBody body
  match untilTerminal s w preProxyPhases with
  | (terminal, decided, w) =>
    let s := decided.setRespHeaders decided.state.respHeaders
    match s.runPhase .headerFilter w with
    | (_, s, w) =>
      match s.runPhase .log w with
      | (_, finished, w) => { terminal, decided, finished, world := w }

def outcome (r : DynRun γ ω) : DynOutcome :=
  let s := r.finished
  .ofRun r.terminal r.decided.state.respBody s.state.respBody s.state.respHeaders s.takeHeaderEdits.1

end DynRun

def DynamicRegistry.invoke {γ ω : Type} (plugin : LoadedPlugin γ ω) (ctx : ReqCtx) (body : Bytes)
    (w : World ω)
    : DynOutcome × World ω :=
  let r := DynRun.run plugin ctx body w
  (r.outcome, r.world)

/-- A module that writes its response by the calls of the host, and only in its phases. -/
structure WasmModule.WritesByCalls {γ ω : Type} (module : WasmModule γ ω) : Prop where
  instantiate : ∀ memoryMb hd outside guest hd',
    (module.instantiate memoryMb hd outside).1 = .ok (guest, hd') → hd'.respEdits = hd.respEdits
  onPhase : ∀ phase timeout guest hd outside, ∃ calls,
    (module.onPhase phase timeout guest hd outside).2.2.1.respEdits = (hd.responds calls).respEdits
      ∧ (module.onPhase phase timeout guest hd outside).2.2.1.respHeaders
        = (hd.responds calls).respHeaders

def WasmModule.scripted (calls : Phase → List RespCall) (code : Phase → Int) : WasmModule Unit Unit where
  instantiate _ hd outside := (.ok ((), hd), outside)
  onPhase phase _ _ hd outside := (.ok (code phase), (), hd.responds (calls phase), outside)

theorem WasmModule.writesByCalls_scripted (calls : Phase → List RespCall) (code : Phase → Int)
    : (WasmModule.scripted calls code).WritesByCalls where
  instantiate := by
    intro memoryMb hd outside guest hd' h
    cases h
    rfl
  onPhase := by
    intro phase timeout guest hd outside
    exact ⟨calls phase, rfl, rfl⟩

namespace DynRun

variable {γ ω : Type} {plugin : LoadedPlugin γ ω}

structure Recorded (plugin : LoadedPlugin γ ω) (s : RequestSession γ ω) : Prop where
  collected : s.Collected
  slot : ∃ rt, s.slots = [{ plugin, rt }]
  headers : s.state.respHeaders = finalHeaders [] s.takeHeaderEdits.1

theorem recorded_new (plugin : LoadedPlugin γ ω) (ctx : ReqCtx) (body : Bytes)
    : Recorded plugin ((RequestSession.new [plugin] ctx []).setReqBody body) where
  collected := RequestSession.collected_new [plugin] ctx []
  slot := ⟨none, rfl⟩
  headers := rfl

theorem runPhase_singleton (slot : PluginSlot γ ω) (s : SessionState) (phase : Phase) (w : World ω)
    : RequestSession.runPhase { slots := [slot], state := s } phase w
      = match slot.run phase s w with
        | (d, slot, s, w) => (d, { slots := [slot], state := s }, w) := by
  simp only [RequestSession.runPhase, RequestSession.runPhase.go]
  split
  . rfl
  . rfl

theorem call_edits (hmodule : plugin.module.WritesByCalls) (phase : Phase) (inst : Instance γ)
    (written : Option Bytes) {s : SessionState} (w : World ω)
    (h : s.respHeaders = finalHeaders [] inst.respEdits)
    : (plugin.call phase inst written s w).state.respHeaders
      = finalHeaders [] ((plugin.call phase inst written s w).inst.elim [] Instance.respEdits) := by
  rcases hmodule.onPhase phase plugin.timeout inst.guest (inst.view s written) w.outside
    with ⟨calls, hedits, hheaders⟩
  rcases (inst.view s written).responds_edits calls with ⟨edits, hedits', hheaders'⟩
  unfold LoadedPlugin.call
  simp only [Instance.ofHostData, SessionState.leftBy, Option.elim_some]
  rw [hedits, hheaders, hedits', hheaders']
  unfold finalHeaders at h ⊢
  rw [List.foldl_append]
  simp only [Instance.view]
  rw [h]

theorem invoke_edits (hmodule : plugin.module.WritesByCalls) (phase : Phase)
    {inst : Option (Instance γ)} {s : SessionState} (w : World ω)
    (h : s.respHeaders = finalHeaders [] (inst.elim [] Instance.respEdits))
    : (plugin.invoke phase inst s w).state.respHeaders
      = finalHeaders [] ((plugin.invoke phase inst s w).inst.elim [] Instance.respEdits) := by
  cases inst with
  | some inst => exact call_edits hmodule phase inst none w h
  | none =>
    unfold LoadedPlugin.invoke
    dsimp only
    split
    . next guest hd outside heq =>
      apply call_edits hmodule
      have hinstance := hmodule.instantiate plugin.memoryMb
        { ctx := .empty, peers := [], settings := plugin.settings } w.outside guest hd (by rw [heq])
      rw [h]
      unfold Instance.ofHostData
      rw [hinstance]
      rfl
    . exact h

theorem takeHeaderEdits_singleton (slot : PluginSlot γ ω) (s : SessionState)
    : (RequestSession.takeHeaderEdits { slots := [slot], state := s }).1
      = slot.abs.inst.elim [] Instance.respEdits := by
  unfold RequestSession.takeHeaderEdits PluginSlot.abs
  cases hrt : slot.rt with
  | none => simp [hrt]
  | some rt => simp [hrt, Instance.ofHostData]

theorem Recorded.runPhase (hmodule : plugin.module.WritesByCalls) {s : RequestSession γ ω}
    (h : Recorded plugin s) (phase : Phase) (w : World ω)
    : Recorded plugin (s.runPhase phase w).2.1 := by
  have hcollected := h.collected.runPhase phase w
  rcases s with ⟨slots, state⟩
  rcases h with ⟨hcollected', ⟨rt, rfl⟩, hheaders⟩
  rw [takeHeaderEdits_singleton] at hheaders
  have hrefines := PluginSlot.run_refines (hcollected' _ (List.mem_singleton_self _)) phase state w
  have hedits := invoke_edits hmodule phase w hheaders
  rw [runPhase_singleton] at hcollected ⊢
  revert hcollected hrefines
  rcases PluginSlot.run { plugin, rt } phase state w with ⟨d, slot, state', w'⟩
  intro hcollected hrefines
  have hplugin : slot.plugin = plugin := by
    exact congrArg ChainSlot.plugin hrefines.abs
  constructor
  . exact hcollected
  . refine ⟨slot.rt, ?_⟩
    rw [← hplugin]
  . rw [takeHeaderEdits_singleton]
    dsimp only
    rw [show slot.abs = _ from hrefines.abs, show state' = _ from hrefines.state]
    exact hedits

theorem Recorded.untilTerminal (hmodule : plugin.module.WritesByCalls) {s : RequestSession γ ω}
    (h : Recorded plugin s) (w : World ω) (phases : List Phase)
    : Recorded plugin (DynRun.untilTerminal s w phases).2.1 := by
  induction phases generalizing s w with
  | nil => exact h
  | cons phase phases ih =>
    have hphase := h.runPhase hmodule phase w
    unfold DynRun.untilTerminal
    dsimp only
    split
    . exact hphase
    . exact ih hphase _

/-- The headers of the session are what the recorded edits make of none. -/
theorem run_headers (hmodule : plugin.module.WritesByCalls) (ctx : ReqCtx) (body : Bytes) (w : World ω)
    : (run plugin ctx body w).finished.state.respHeaders
      = finalHeaders [] (run plugin ctx body w).finished.takeHeaderEdits.1 := by
  have hdecided := (recorded_new plugin ctx body).untilTerminal hmodule w preProxyPhases
  have hfilter := hdecided.runPhase hmodule .headerFilter
    (DynRun.untilTerminal ((RequestSession.new [plugin] ctx []).setReqBody body) w preProxyPhases).2.2
  exact (hfilter.runPhase hmodule .log _).headers

end DynRun

end OpenRusty
