import OpenRusty.Lib.Machine
import OpenRusty.Wasm.Session.Chain

/-!
This module contains the refinement of the fold by the run of a phase. The abstraction drops from an
instance what the session holds between two calls; it relies on every response body having been
collected from the instances, which holds after every operation on a session.
-/

namespace OpenRusty

variable {γ ω : Type}

namespace PluginSlot

def abs (slot : PluginSlot γ ω) : ChainSlot γ ω :=
  { plugin := slot.plugin, inst := slot.rt.map fun rt => .ofHostData rt.guest rt.hostData }

def Collected (slot : PluginSlot γ ω) : Prop :=
  ∀ rt, slot.rt = some rt → rt.hostData.respBody = none

theorem pull_push (s : SessionState) (rt : PluginRt γ) (hd : HostData)
    : ((s.push rt.hostData).1.pull hd).1 = s.leftBy hd := by
  unfold SessionState.pull SessionState.push SessionState.leftBy
  cases hd.respBody with
  | none => rfl
  | some b => rfl

theorem pull_collected (s : SessionState) (hd : HostData) : (s.pull hd).2.respBody = none := by
  unfold SessionState.pull
  cases hd.respBody with
  | none => rfl
  | some b => rfl

theorem ofHostData_pull (s : SessionState) (guest : γ) (hd : HostData)
    : Instance.ofHostData guest (s.pull hd).2 = Instance.ofHostData guest hd := by
  unfold SessionState.pull Instance.ofHostData
  cases hd.respBody with
  | none => rfl
  | some b => rfl

theorem push_eq_view (s : SessionState) (rt : PluginRt γ)
    : (s.push rt.hostData).2
        =
      (Instance.ofHostData rt.guest rt.hostData).view s rt.hostData.respBody := by
  rfl

theorem runPhase_eq (plugin : LoadedPlugin γ ω) (rt : PluginRt γ) (phase : Phase) (w : World ω)
    : PluginRt.runPhase plugin rt phase w
        =
      match plugin.module.onPhase phase plugin.timeout rt.guest rt.hostData w.outside with
      | (result, guest, hostData, outside) =>
        (plugin.contribution (LoadedPlugin.outcomeOf result), { guest, hostData },
          match LoadedPlugin.outcomeOf result with
          | .ok _ => { w with outside }
          | .error kind => World.recordError { w with outside } plugin.name kind) := by
  unfold PluginRt.runPhase PluginRt.runPhaseOutcome
  rcases plugin.module.onPhase phase plugin.timeout rt.guest rt.hostData w.outside with
    ⟨result, guest, hostData, outside⟩
  cases result with
  | ok code =>
    cases hcode : Decision.fromAbi code with
    | none =>
      simp only [LoadedPlugin.outcomeOf, hcode]
      cases hpolicy : plugin.failPolicy <;> simp [LoadedPlugin.contribution, hpolicy, fallbackDecision]
    | some d => simp [LoadedPlugin.outcomeOf, hcode, LoadedPlugin.contribution]
  | error e =>
    cases hpolicy : plugin.failPolicy <;> cases e <;>
      simp [LoadedPlugin.outcomeOf, LoadedPlugin.contribution, hpolicy, fallbackDecision,
        WasmError.label]

structure Refines (slot : PluginSlot γ ω) (phase : Phase) (i : Invocation γ ω)
    (r : Decision × PluginSlot γ ω × SessionState × World ω) : Prop where
  decision : r.1 = slot.plugin.contribution i.outcome
  abs : r.2.1.abs = { slot.abs with inst := i.inst }
  collected : r.2.1.Collected
  state : r.2.2.1 = i.state.recordPhaseTime phase
  world : r.2.2.2 = i.loggedWorld slot.plugin.name

theorem call_refines (slot : PluginSlot γ ω) (rt : PluginRt γ) (phase : Phase) (s : SessionState)
    (w : World ω)
    : slot.Refines phase
        (slot.plugin.call phase (.ofHostData rt.guest rt.hostData) rt.hostData.respBody s w)
        (slot.call rt phase s w) := by
  unfold call LoadedPlugin.call
  simp only [runPhase_eq]
  rw [push_eq_view]
  constructor
  . rfl
  . simp only [abs, Option.map_some, ofHostData_pull]
    rfl
  . intro rt' hrt'
    cases hrt'
    apply pull_collected
  . simp only [pull_push]
    rfl
  . rfl

theorem run_refines {slot : PluginSlot γ ω} (hslot : slot.Collected) (phase : Phase)
    (s : SessionState) (w : World ω)
    : slot.Refines phase (slot.plugin.invoke phase slot.abs.inst s w) (slot.run phase s w) := by
  cases hrt : slot.rt with
  | some rt =>
    have hcall := call_refines slot rt phase s w
    rw [hslot rt hrt] at hcall
    simpa only [run, ensure, hrt, abs, Option.map_some, LoadedPlugin.invoke] using hcall
  | none =>
    simp only [run, ensure, hrt, instantiateOne, abs, Option.map_none, LoadedPlugin.invoke]
    rcases slot.plugin.module.instantiate slot.plugin.memoryMb _ w.outside with ⟨result, outside⟩
    cases result with
    | ok x => exact call_refines slot { guest := x.1, hostData := x.2 } phase s { w with outside }
    | error e =>
      constructor
      . cases hpolicy : slot.plugin.failPolicy <;>
          simp [LoadedPlugin.contribution, hpolicy, fallbackDecision]
      . simp [abs, hrt]
      . exact hslot
      . rfl
      . rfl

end PluginSlot

namespace RequestSession

def Collected (s : RequestSession γ ω) : Prop := ∀ slot ∈ s.slots, slot.Collected

theorem chain_step_abs {phase : Phase} {slot : PluginSlot γ ω} (hslot : slot.Collected)
    {last : Decision} (hlast : (last.isTerminal && phase != .log) = false) (s : SessionState)
    (w : World ω) (done : List (ChainSlot γ ω))
    : Chain.step phase { slots := done, state := s, world := w, last := last } slot.abs
        =
      { slots := done ++ [(slot.run phase s w).2.1.abs]
        state := (slot.run phase s w).2.2.1
        world := (slot.run phase s w).2.2.2
        last := (slot.run phase s w).1 } := by
  have hrun := PluginSlot.run_refines hslot phase s w
  rw [Chain.step, if_neg (by simp [Chain.stopped, hlast])]
  rw [hrun.abs, hrun.state, hrun.world, hrun.decision]
  rfl

theorem runPhase_go_refines (phase : Phase) {slots : List (PluginSlot γ ω)}
    (hslots : ∀ slot ∈ slots, slot.Collected) (last : Decision) (s : SessionState) (w : World ω)
    (done : List (ChainSlot γ ω)) (hlast : (last.isTerminal && phase != .log) = false)
    : let r := runPhase.go phase last slots s w
      (slots.map PluginSlot.abs).foldl (Chain.step phase)
          { slots := done, state := s, world := w, last := last }
        = { slots := done ++ r.2.1.map PluginSlot.abs, state := r.2.2.1, world := r.2.2.2
            last := r.1 }
      ∧ ∀ slot ∈ r.2.1, slot.Collected := by
  induction slots generalizing last s w done with
  | nil => simp [runPhase.go]
  | cons slot slots ih =>
    have hcollected := (PluginSlot.run_refines (hslots slot (by simp)) phase s w).collected
    have hrest : ∀ slot ∈ slots, slot.Collected := by
      intro slot hslot
      apply hslots
      simp [hslot]
    rw [List.map_cons, List.foldl_cons]
    rw [chain_step_abs (hslots slot (by simp)) hlast]
    unfold runPhase.go
    rcases hrun : slot.run phase s w with ⟨d, slot', s', w'⟩
    rw [hrun] at hcollected
    dsimp only
    split
    . next hstop =>
      rw [Chain.foldl_step_of_stopped (by exact hstop)]
      refine ⟨?_, ?_⟩
      . simp
      . simp only [List.mem_cons, forall_eq_or_imp]
        exact ⟨hcollected, hrest⟩
    . next hgo =>
      have hih := ih hrest d s' w' (done ++ [slot'.abs]) (by simpa using hgo)
      refine ⟨?_, ?_⟩
      . rw [hih.1]
        simp
      . simp only [List.mem_cons, forall_eq_or_imp]
        exact ⟨hcollected, hih.2⟩

theorem Collected.runPhase {s : RequestSession γ ω} (hs : s.Collected) (phase : Phase) (w : World ω)
    : (s.runPhase phase w).2.1.Collected := by
  exact (runPhase_go_refines phase hs .declined s.state w [] rfl).2

theorem Collected.mapHostData {s : RequestSession γ ω} (hs : s.Collected) {f : HostData → HostData}
    (hf : ∀ hd, hd.respBody = none → (f hd).respBody = none)
    : (s.mapHostData f).Collected := by
  intro slot' hslot' rt' hrt'
  obtain ⟨slot, hslot, rfl⟩ := List.mem_map.mp hslot'
  obtain ⟨rt, hrt, rfl⟩ := Option.map_eq_some_iff.mp hrt'
  apply hf
  exact hs slot hslot rt hrt

theorem Collected.step {x y : RequestSession γ ω × World ω} {op : SessionOp ω} (hx : x.1.Collected)
    (hstep : RequestSession.step x op = some y)
    : y.1.Collected := by
  cases op with
  | takeRespBody =>
    cases hstep
    apply hx.mapHostData (f := fun hd => { hd with respBody := none })
    intro hd _
    rfl
  | takeHeaderEdits =>
    cases hstep
    apply hx.mapHostData (f := fun hd => { hd with respEdits := [] })
    intro hd h
    exact h
  | takeReqEdits =>
    cases hstep
    apply hx.mapHostData (f := fun hd => { hd with reqEdits := [] })
    intro hd h
    exact h
  | runPhase phase =>
    cases hstep
    exact hx.runPhase phase x.2
  | _ =>
    cases hstep
    exact hx

theorem collected_new (plugins : List (LoadedPlugin γ ω)) (ctx : ReqCtx) (peers : List PeerView)
    : (new plugins ctx peers).Collected := by
  intro slot hslot rt hrt
  obtain ⟨plugin, -, rfl⟩ := List.mem_map.mp hslot
  cases hrt

end RequestSession

theorem runPhase_refines_chain (plugins : List (LoadedPlugin γ ω)) (ctx : ReqCtx)
    (peers : List PeerView) (w₀ : World ω) (ops : List (SessionOp ω)) (s : RequestSession γ ω)
    (w : World ω)
    (hrun : Machine.run RequestSession.step (RequestSession.new plugins ctx peers, w₀) ops
      = some (s, w))
    (phase : Phase)
    : let r := s.runPhase phase w
      let c := Chain.run phase (s.slots.map PluginSlot.abs) s.state w
      r.1 = c.last ∧ r.2.1.slots.map PluginSlot.abs = c.slots ∧ r.2.1.state = c.state
        ∧ r.2.2 = c.world := by
  have hcollected : s.Collected := by
    apply Machine.inv_of_run_all (I := fun x => x.1.Collected) _ _ hrun
    . intro x op y hx hstep
      exact hx.step hstep
    . apply RequestSession.collected_new
  have hgo := RequestSession.runPhase_go_refines phase hcollected .declined s.state w [] rfl
  dsimp only
  unfold Chain.run
  rw [hgo.1]
  refine ⟨rfl, ?_, rfl, rfl⟩
  simp [RequestSession.runPhase]

def brokenModule : WasmModule Unit Unit where
  instantiate _ _ _ := (.error .interrupt, ())
  onPhase _ _ _ hd _ := (.ok 0, (), hd, ())

def trappingModule : WasmModule Unit Unit where
  instantiate _ hd _ := (.ok ((), hd), ())
  onPhase _ _ _ hd _ := (.error .other, (), { hd with respBody := some [1], reqBody := [2] }, ())

def denyingModule : WasmModule Unit Unit where
  instantiate _ hd _ := (.ok ((), hd), ())
  onPhase _ _ _ hd _ := (.ok 403, (), { hd with respHeaders := [("x", "y")] }, ())

def mixedPlugins : List (LoadedPlugin Unit Unit) :=
  [⟨"broken", brokenModule, [], 5, .failOpen, 1⟩, ⟨"trapping", trappingModule, [], 5, .failOpen, 1⟩,
    ⟨"denying", denyingModule, [], 5, .failClosed, 1⟩, ⟨"broken", brokenModule, [], 5, .failClosed, 1⟩]

theorem runPhase_refines_chain_mixedPlugins
    : ∃ s w, Machine.run RequestSession.step
          (RequestSession.new mixedPlugins .empty [], { outside := (), errors := ∅ })
          [.setReqBody [7], .runPhase .access] = some (s, w)
        ∧ s.state.reqBody = [2] ∧ s.state.respBody = some [1]
        ∧ (s.runPhase .log w).1 = .deny 503
        ∧ (s.runPhase .log w).1 = (Chain.run .log (s.slots.map PluginSlot.abs) s.state w).last := by
  refine ⟨_, _, rfl, rfl, rfl, rfl, ?_⟩
  exact (runPhase_refines_chain mixedPlugins .empty [] _ [.setReqBody [7], .runPhase .access] _ _ rfl
    .log).1

end OpenRusty
