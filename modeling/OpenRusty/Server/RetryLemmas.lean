import OpenRusty.Server.Pipeline.Selection
import OpenRusty.Server.Retry
import OpenRusty.Wasm.Session.Refinement

/-!
This module contains the proof that the attempts of a request are disciplined. While a request looks for a
peer all the peers that it has attempted are among those that it has tried, and every attempt ended in a way
that it may be sent again after.
-/

namespace OpenRusty

variable {γ ω : Type}

namespace PluginSlot

theorem call_keepsTried {slot : PluginSlot γ ω} (h : slot.plugin.module.KeepsTried) (rt : PluginRt γ)
    (phase : Phase) (s : SessionState) (w : World ω)
    : (slot.call rt phase s w).2.1.plugin = slot.plugin
      ∧ (slot.call rt phase s w).2.2.1.ctx.tried = s.ctx.tried := by
  have htried := h phase slot.plugin.timeout rt.guest (s.push rt.hostData).2 w.outside
  unfold call
  simp only [runPhase_eq, pull_push]
  exact ⟨trivial, htried⟩

theorem run_keepsTried {slot : PluginSlot γ ω} (h : slot.plugin.module.KeepsTried) (phase : Phase)
    (s : SessionState) (w : World ω)
    : (slot.run phase s w).2.1.plugin = slot.plugin
      ∧ (slot.run phase s w).2.2.1.ctx.tried = s.ctx.tried := by
  unfold run
  split
  . next rt w' _ => exact call_keepsTried h rt phase s w'
  . exact ⟨rfl, rfl⟩

end PluginSlot

namespace RequestSession

theorem runPhase_go_keepsTried (phase : Phase) {slots : List (PluginSlot γ ω)}
    (h : ∀ slot ∈ slots, slot.plugin.module.KeepsTried) (last : Decision) (s : SessionState) (w : World ω)
    : (∀ slot ∈ (runPhase.go phase last slots s w).2.1, slot.plugin.module.KeepsTried)
      ∧ (runPhase.go phase last slots s w).2.2.1.ctx.tried = s.ctx.tried := by
  induction slots generalizing last s w with
  | nil => exact ⟨nofun, rfl⟩
  | cons slot slots ih =>
    have hslot := h slot (by simp)
    have hrest : ∀ slot ∈ slots, slot.plugin.module.KeepsTried := fun slot hmem => h slot (by simp [hmem])
    have hkeeps := PluginSlot.run_keepsTried hslot phase s w
    unfold runPhase.go
    rcases hrun : slot.run phase s w with ⟨d, slot', s', w'⟩
    rw [hrun] at hkeeps
    rw [← hkeeps.1] at hslot
    dsimp only at hkeeps hslot ⊢
    split
    . refine ⟨?_, hkeeps.2⟩
      rw [List.forall_mem_cons]
      exact ⟨hslot, hrest⟩
    . have hgo := ih hrest d s' w'
      refine ⟨?_, hgo.2.trans hkeeps.2⟩
      rw [List.forall_mem_cons]
      exact ⟨hslot, hgo.1⟩

theorem runPhase_keepsTried {s : RequestSession γ ω} (h : s.KeepsTried) (phase : Phase) (w : World ω)
    : (s.runPhase phase w).2.1.KeepsTried
      ∧ (s.runPhase phase w).2.1.state.ctx.tried = s.state.ctx.tried :=
  runPhase_go_keepsTried phase h .declined s.state w

end RequestSession

namespace Request

structure Fixed (r r' : Request γ ω) : Prop where
  kind : r'.kind = r.kind
  method : r'.method = r.method
  up : r'.up = r.up
  acquired : r'.acquired = r.acquired
  session : r.session.KeepsTried → r'.session.KeepsTried

theorem Fixed.trans {r r' r'' : Request γ ω} (h : Fixed r r') (h' : Fixed r' r'') : Fixed r r'' where
  kind := h'.kind.trans h.kind
  method := h'.method.trans h.method
  up := h'.up.trans h.up
  acquired := h'.acquired.trans h.acquired
  session := h'.session ∘ h.session

structure Kept (r r' : Request γ ω) : Prop extends Fixed r r' where
  attempt : r'.attempt = r.attempt
  tried : r.session.KeepsTried → r'.ctx.tried = r.ctx.tried

namespace Kept

variable {r r' r'' : Request γ ω}

theorem refl (r : Request γ ω) : Kept r r :=
  ⟨⟨rfl, rfl, rfl, rfl, id⟩, rfl, fun _ => rfl⟩

theorem trans (h : Kept r r') (h' : Kept r' r'') : Kept r r'' where
  toFixed := h.toFixed.trans h'.toFixed
  attempt := h'.attempt.trans h.attempt
  tried := fun hs => (h'.tried (h.session hs)).trans (h.tried hs)

theorem relabel (h : Kept r r') (released : List SocketAddr) (stage : Stage) (ran : List Phase)
    : Kept r { r' with released := released, stage := stage, ran := ran } :=
  { h with session := h.session, tried := h.tried }

end Kept

section kept

variable (s : AppState ω) (r : Request γ ω)

theorem kept_runPhase (phase : Phase) (w : World ω)
    : Kept r { r with session := (r.session.runPhase phase w).2.1 } :=
  { Kept.refl r with
    session := fun h => (RequestSession.runPhase_keepsTried h phase w).1
    tried := fun h => (RequestSession.runPhase_keepsTried h phase w).2 }

theorem kept_finishLog (status : Nat) : Kept r (r.finishLog s status).2 := by
  have hphase := kept_runPhase r .log s.world
  exact { hphase with session := hphase.session, tried := hphase.tried }

theorem kept_beginAttempt : Kept r r.beginAttempt := by
  unfold beginAttempt
  split <;> exact { Kept.refl r with session := id }

theorem kept_pick : Kept r (r.pick s).2 := by
  have hphase := r.kept_beginAttempt.trans (r.beginAttempt.kept_runPhase .balancer s.world)
  unfold pick
  dsimp only
  split
  . exact (hphase.relabel _ _ _).trans (kept_finishLog ..)
  . split
    . exact hphase.relabel _ _ _
    . exact hphase.relabel _ _ _

theorem kept_testPin (i nowMs : Nat) : Kept r (r.testPin s i nowMs) := by
  unfold testPin
  split <;> exact { Kept.refl r with session := id }

theorem kept_listHealthy (nowMs : Nat) : Kept r (r.listHealthy s nowMs).2 := by
  unfold listHealthy
  dsimp only
  split
  . apply kept_finishLog
  . exact (Kept.refl r).relabel _ _ _

theorem kept_chosen (i : Option Nat) : Kept r (r.chosen s i).2 := by
  unfold chosen
  split
  . exact (Kept.refl r).relabel _ _ _
  . apply kept_finishLog

theorem kept_choose (candidates : List Nat) : Kept r (r.choose s candidates).2 := by
  unfold choose
  split
  . split <;> apply kept_chosen
  . apply kept_chosen
  . apply kept_chosen

theorem kept_forward (idx : Nat) : Kept r (r.forward idx) := by
  unfold forward
  split <;> exact { Kept.refl r with session := id }

theorem kept_answer (idx : Nat) (outcome : Outcome) : Kept r (r.answer idx outcome) := by
  unfold answer
  split <;> exact (Kept.refl r).relabel _ _ _

theorem fixed_markTried (idx : Nat)
    : Fixed r (r.markTried idx) ∧ (r.markTried idx).attempt = r.attempt := by
  unfold markTried
  split <;> exact ⟨{ (Kept.refl r).toFixed with session := id }, rfl⟩

end kept

def Untried (r : Request γ ω) (idx : Nat) : Prop :=
  ∀ p, r.up.peers[idx]? = some p → p.addr ∉ r.ctx.tried

end Request

namespace Stage

def searching (stage : Stage) : Bool :=
  match stage with
  | .pick => true
  | .testPin _ => true
  | .listHealthy => true
  | .choose _ => true
  | .acquire _ => true
  | _ => false

def settled (stage : Stage) : Bool :=
  match stage with
  | .accept _ => true
  | .dropped => true
  | .done _ => true
  | _ => false

theorem searching_cases {stage : Stage} (h : stage.searching = true)
    : (∀ idx, ¬(stage = .build idx ∨ stage = .wait idx))
      ∧ ∀ idx o, ¬(stage = .record idx o ∨ stage = .release idx o) := by
  cases stage <;> simp_all [searching]

theorem settled_cases {stage : Stage} (h : stage.settled = true)
    : stage.searching = false ∧ (∀ idx, ¬(stage = .build idx ∨ stage = .wait idx))
      ∧ ∀ idx o, ¬(stage = .record idx o ∨ stage = .release idx o) := by
  cases stage <;> simp_all [searching, settled]

end Stage

namespace Request

inductive Retries (r : Request γ ω) (x : Input) (r' : Request γ ω) : Prop where
  | searched (hstage : r.stage.searching = true) (hkept : Kept r r') (hstage' : r'.stage.searching = true)
      (huntried : ∀ i ∈ r'.stage.indices, i ∈ r.stage.indices ∨ r.Untried i)
  | taken {idx : Nat} {p : Peer} (hstage : r.stage = .acquire idx) (hp : r.up.peers[idx]? = some p)
      (hkept : Kept { r with acquired := r.acquired ++ [p.addr] } r')
      (hstage' : r'.stage = .build idx ∨ r'.stage = .wait idx)
  | built {idx : Nat} (hstage : r.stage = .build idx) (hkept : Kept r r') (hstage' : r'.stage = .wait idx)
  | ended {idx : Nat} {o : Outcome} (hstage : r.stage = .wait idx) (hx : x = .outcome o) (hkept : Kept r r')
      (hstage' : r'.stage = .record idx o ∨ r'.stage = .release idx o)
  | recorded {idx : Nat} {o : Outcome} (hstage : r.stage = .record idx o) (hkept : Kept r r')
      (hstage' : r'.stage = .release idx o)
  | again {idx : Nat} {o : Outcome} (hstage : r.stage = .release idx o) (hfixed : Fixed r r')
      (htried : r'.ctx.tried = (r.markTried idx).ctx.tried) (hstage' : r'.stage = .pick)
      (hanswered : ∀ status, o ≠ .answered status)
      (hhttp : r.kind = .http
        → r.mayRetryAfter o = true ∧ r.attempt + 1 < r.attempts ∧ r'.attempt = r.attempt + 1)
  | settled (hends : r.ends x = []) (hfixed : Fixed r r') (hstage' : r'.stage.settled = true)

theorem ends_eq_nil {r : Request γ ω} (hstage : ∀ idx, r.stage ≠ .wait idx) (x : Input) : r.ends x = [] := by
  unfold ends
  split
  . next idx _ hwait => exact absurd hwait (hstage idx)
  . rfl

section retries

variable {s : AppState ω} {r r' : Request γ ω} {x : Input} {y : AppState ω × Request γ ω}

theorem untried_of_selectable {idx nowMs : Nat} (h : r.Selectable s idx nowMs) : r.Untried idx := by
  rcases h.2 with ⟨p, hp, huntried⟩
  intro p' hp'
  rw [hp] at hp'
  cases hp'
  exact huntried

theorem retries_of_searching (hact : r.act s x = some y) (hstage : r.stage.searching = true)
    (hkept : Kept r y.2) (hstage' : y.2.stage.searching = true ∨ y.2.stage.settled = true)
    : Retries r x y.2 := by
  rcases hstage' with hstage' | hstage'
  . apply Retries.searched hstage hkept hstage'
    intro i hi
    rcases act_indices hact hi with hold | ⟨nowMs, -, -, hselectable⟩
    . exact .inl hold
    . exact .inr (untried_of_selectable hselectable)
  . refine .settled (ends_eq_nil ?_ x) hkept.toFixed hstage'
    intro idx hwait
    rw [hwait] at hstage
    cases hstage

theorem stage_pick (s : AppState ω) (r : Request γ ω)
    : (r.pick s).2.stage.searching = true ∨ (r.pick s).2.stage.settled = true := by
  unfold pick
  dsimp only
  split
  . exact .inr rfl
  . split <;> exact .inl rfl

theorem stage_listHealthy (s : AppState ω) (r : Request γ ω) (nowMs : Nat)
    : (r.listHealthy s nowMs).2.stage.searching = true ∨ (r.listHealthy s nowMs).2.stage.settled = true := by
  unfold listHealthy
  dsimp only
  split
  . exact .inr rfl
  . exact .inl rfl

theorem stage_chosen (s : AppState ω) (r : Request γ ω) (i : Option Nat)
    : (r.chosen s i).2.stage.searching = true ∨ (r.chosen s i).2.stage.settled = true := by
  unfold chosen
  split
  . exact .inl rfl
  . exact .inr rfl

theorem stage_choose (s : AppState ω) (r : Request γ ω) (candidates : List Nat)
    : (r.choose s candidates).2.stage.searching = true ∨ (r.choose s candidates).2.stage.settled = true := by
  unfold choose
  split
  . split <;> apply stage_chosen
  . apply stage_chosen
  . apply stage_chosen

theorem retries_of_afterRelease (s : AppState ω) {idx nowMs : Nat} {o : Outcome}
    (hstage : r.stage = .release idx o) (released : List SocketAddr)
    : Retries r (.tick nowMs) (afterRelease s { r with released := released } idx o).2 := by
  have hends : r.ends (.tick nowMs) = [] := ends_eq_nil (by rw [hstage]; nofun) _
  have hreleased : Kept r { r with released := released } := (Kept.refl r).relabel released r.stage r.ran
  have hmarked := fixed_markTried { r with released := released } idx
  have hfixed := hreleased.toFixed.trans hmarked.1
  have htried : (markTried { r with released := released } idx).ctx.tried = (r.markTried idx).ctx.tried := by
    unfold markTried
    dsimp only
    cases r.up.peers[idx]? <;> rfl
  unfold afterRelease
  split
  . exact .settled hends ((Kept.refl r).relabel released _ _).toFixed rfl
  . next o _ hkind hanswered =>
    split
    . next hretry =>
      unfold nextAttempt
      split
      . next hlt =>
        refine .again hstage { hfixed with session := hfixed.session } htried rfl hanswered ?_
        intro _
        rw [hmarked.2] at hlt
        refine ⟨hretry, ?_, congrArg (· + 1) hmarked.2⟩
        have hup := hfixed.up
        unfold attempts at *
        rw [hup] at hlt
        exact hlt
      . exact .settled hends (hfixed.trans (kept_finishLog ..).toFixed) rfl
    . exact .settled hends (hreleased.trans (kept_finishLog ..)).toFixed rfl
  . split
    . exact .settled hends ((Kept.refl r).relabel released _ _).toFixed rfl
    . exact .settled hends (hreleased.trans (kept_finishLog ..)).toFixed rfl
  . next o _ hkind hanswered =>
    refine .again hstage { hfixed with session := hfixed.session } htried rfl hanswered ?_
    intro hhttp
    dsimp only at hkind
    rw [hhttp] at hkind
    cases hkind

theorem retries_of_release (s : AppState ω) {idx nowMs : Nat} {o : Outcome}
    (hstage : r.stage = .release idx o)
    : Retries r (.tick nowMs) (r.release s idx o).2 := by
  unfold release releasePeer
  split
  . next s' r' heq =>
    split at heq
    . cases heq
      exact retries_of_afterRelease _ hstage _
    . cases heq
      exact retries_of_afterRelease _ hstage r.released

theorem retries_of_act (hact : r.act s x = some y) : Retries r x y.2 := by
  have hact' := hact
  unfold act at hact
  split at hact
  . next hstage =>
    cases hact
    exact retries_of_searching hact' (by rw [hstage]; rfl) (kept_pick s r) (stage_pick s r)
  . next i nowMs hstage =>
    cases hact
    apply retries_of_searching hact' (by rw [hstage]; rfl) (kept_testPin s r i nowMs)
    unfold testPin
    split <;> exact .inl rfl
  . next nowMs hstage =>
    cases hact
    exact retries_of_searching hact' (by rw [hstage]; rfl) (kept_listHealthy s r nowMs)
      (stage_listHealthy s r nowMs)
  . next candidates nowMs hstage =>
    cases hact
    exact retries_of_searching hact' (by rw [hstage]; rfl) (kept_choose s r candidates)
      (stage_choose s r candidates)
  . next idx nowMs hstage =>
    unfold acquire at hact
    rcases Option.map_eq_some_iff.mp hact with ⟨p, hp, rfl⟩
    refine .taken hstage hp (kept_forward _ idx) ?_
    unfold forward
    split
    . exact .inr rfl
    . exact .inl rfl
  . next idx hstage =>
    cases hact
    exact .built hstage ((Kept.refl r).relabel _ _ _) rfl
  . next idx hstage =>
    cases hact
    exact .settled (ends_eq_nil (by rw [hstage]; nofun) _) (kept_finishLog s r 502).toFixed rfl
  . next idx o hstage =>
    cases hact
    refine .ended hstage rfl (kept_answer r idx o) ?_
    unfold answer
    split
    . exact .inr rfl
    . exact .inl rfl
  . next idx hstage =>
    cases hact
    refine .settled ?_ ((Kept.refl r).relabel _ _ _).toFixed rfl
    unfold ends
    rw [hstage]
  . next idx o nowMs hstage =>
    cases hact
    exact .recorded hstage ((Kept.refl r).relabel _ _ _) rfl
  . next idx o nowMs hstage =>
    cases hact
    exact retries_of_release s hstage
  . next idx nowMs hstage =>
    cases hact
    exact .settled (ends_eq_nil (by rw [hstage]; nofun) _) ((Kept.refl r).relabel _ _ _).toFixed rfl
  . cases hact

theorem same_of_act (hact : r.act s x = some y) : y.2.kind = r.kind ∧ y.2.method = r.method := by
  cases retries_of_act hact with
  | searched _ hkept _ _ => exact ⟨hkept.kind, hkept.method⟩
  | taken _ _ hkept _ => exact ⟨hkept.kind, hkept.method⟩
  | built _ hkept _ => exact ⟨hkept.kind, hkept.method⟩
  | ended _ _ hkept _ => exact ⟨hkept.kind, hkept.method⟩
  | recorded _ hkept _ => exact ⟨hkept.kind, hkept.method⟩
  | again _ hfixed _ _ _ _ => exact ⟨hfixed.kind, hfixed.method⟩
  | settled _ hfixed _ => exact ⟨hfixed.kind, hfixed.method⟩

end retries

end Request

namespace AttemptLoop

structure Between (l : AttemptLoop γ ω) : Prop where
  tried : l.request.acquired ⊆ l.request.ctx.tried
  paired : l.outcomes.length = l.request.acquired.length
  resent : ∀ o ∈ l.outcomes, l.request.MayResend o
  attempt : l.request.kind = .http
    → l.request.acquired.length = l.request.attempt ∧ l.request.attempt ≤ l.request.up.retries
  untried : ∀ i ∈ l.request.stage.indices, l.request.Untried i

structure Under (l : AttemptLoop γ ω) (idx : Nat) (last : List Outcome) (prev : List SocketAddr)
    (past : List Outcome) : Prop where
  acquired : ∃ p, l.request.up.peers[idx]? = some p ∧ l.request.acquired = prev ++ [p.addr]
  outcomes : l.outcomes = past ++ last
  tried : prev ⊆ l.request.ctx.tried
  paired : past.length = prev.length
  resent : ∀ o ∈ past, l.request.MayResend o
  attempt : l.request.kind = .http
    → prev.length = l.request.attempt ∧ l.request.attempt ≤ l.request.up.retries

structure Inv (l : AttemptLoop γ ω) : Prop where
  session : l.request.session.KeepsTried
  disciplined : l.Disciplined
  subset : l.request.acquired ⊆ l.request.up.addrs
  searching : l.request.stage.searching = true → l.Between
  under : ∀ idx, l.request.stage = .build idx ∨ l.request.stage = .wait idx →
    ∃ prev past, l.Under idx [] prev past
  ended : ∀ idx o, l.request.stage = .record idx o ∨ l.request.stage = .release idx o →
    (∃ prev past, l.Under idx [o] prev past)
      ∧ (l.request.kind = .websocket → Input.failsLate (.outcome o) = true →
        isIdempotent l.request.method = true)

section transport

variable {r r' : Request γ ω} {outcomes : List Outcome}

theorem mayResend_fixed (h : Request.Fixed r r') (o : Outcome) : r'.MayResend o ↔ r.MayResend o := by
  unfold Request.MayResend
  rw [h.method, h.kind, h.up]

theorem subset_fixed (hs : r.acquired ⊆ r.up.addrs) (h : Request.Fixed r r') : r'.acquired ⊆ r'.up.addrs := by
  rw [h.acquired, h.up]
  exact hs

theorem Disciplined.fixed (hd : Disciplined { request := r, outcomes }) (h : Request.Fixed r r')
    : Disciplined { request := r', outcomes } := by
  have hbudget : r'.budget = r.budget := by
    unfold Request.budget
    rw [h.kind, h.up]
  refine ⟨?_, ?_, ?_, ?_⟩
  . dsimp only
    rw [h.acquired]
    exact hd.nodup
  . dsimp only
    rw [h.acquired, hbudget]
    exact hd.bounded
  . dsimp only
    rw [h.acquired]
    exact hd.paired
  . intro j hj
    dsimp only at hj ⊢
    rw [h.acquired] at hj
    rcases hd.resent j hj with ⟨o, ho, hresend⟩
    exact ⟨o, ho, (mayResend_fixed h o).mpr hresend⟩

theorem Between.kept (hb : Between { request := r, outcomes }) (h : Request.Kept r r')
    (hs : r.session.KeepsTried) (huntried : ∀ i ∈ r'.stage.indices, r'.Untried i)
    : Between { request := r', outcomes } := by
  refine ⟨?_, ?_, ?_, ?_, huntried⟩
  . dsimp only
    rw [h.acquired, h.tried hs]
    exact hb.tried
  . dsimp only
    rw [h.acquired]
    exact hb.paired
  . intro o ho
    exact (mayResend_fixed h.toFixed o).mpr (hb.resent o ho)
  . dsimp only
    rw [h.kind, h.acquired, h.attempt, h.up]
    exact hb.attempt

theorem Under.kept {idx : Nat} {last past : List Outcome} {prev : List SocketAddr}
    (hu : Under { request := r, outcomes } idx last prev past) (h : Request.Kept r r')
    (hs : r.session.KeepsTried)
    : Under { request := r', outcomes } idx last prev past := by
  refine ⟨?_, hu.outcomes, ?_, hu.paired, ?_, ?_⟩
  . dsimp only
    rw [h.up, h.acquired]
    exact hu.acquired
  . dsimp only
    rw [h.tried hs]
    exact hu.tried
  . intro o ho
    exact (mayResend_fixed h.toFixed o).mpr (hu.resent o ho)
  . dsimp only
    rw [h.kind, h.attempt, h.up]
    exact hu.attempt

end transport

section inv

variable {r r' : Request γ ω} {outcomes : List Outcome}

theorem inv_settled (h : Inv { request := r, outcomes }) (hfixed : Request.Fixed r r')
    (hstage' : r'.stage.settled = true)
    : Inv { request := r', outcomes } := by
  rcases Stage.settled_cases hstage' with ⟨hsearching, hunder, hended⟩
  refine ⟨hfixed.session h.session, h.disciplined.fixed hfixed, ?_, ?_, ?_, ?_⟩
  . exact subset_fixed h.subset hfixed
  . intro hstage
    rw [hsearching] at hstage
    cases hstage
  . intro idx hstage
    exact absurd hstage (hunder idx)
  . intro idx o hstage
    exact absurd hstage (hended idx o)

theorem inv_searched (h : Inv { request := r, outcomes }) (hstage : r.stage.searching = true)
    (hkept : Request.Kept r r') (hstage' : r'.stage.searching = true)
    (huntried : ∀ i ∈ r'.stage.indices, i ∈ r.stage.indices ∨ r.Untried i)
    : Inv { request := r', outcomes } := by
  have hbetween := h.searching hstage
  rcases Stage.searching_cases hstage' with ⟨hunder, hended⟩
  refine ⟨hkept.session h.session, h.disciplined.fixed hkept.toFixed, ?_, ?_, ?_, ?_⟩
  . exact subset_fixed h.subset hkept.toFixed
  . intro _
    apply hbetween.kept hkept h.session
    intro i hi p hp
    rw [hkept.up] at hp
    rw [hkept.tried h.session]
    rcases huntried i hi with hold | hnew
    . exact hbetween.untried i hold p hp
    . exact hnew p hp
  . intro idx hstage
    exact absurd hstage (hunder idx)
  . intro idx o hstage
    exact absurd hstage (hended idx o)

theorem length_le_dedup {l xs : List SocketAddr} (hnodup : l.Nodup) (hsubset : l ⊆ xs)
    : l.length ≤ xs.dedup.length := by
  apply List.Subperm.length_le
  apply List.subperm_of_subset hnodup
  intro a ha
  rw [List.mem_dedup]
  exact hsubset ha

theorem disciplined_taken (h : Inv { request := r, outcomes }) {idx : Nat} {p : Peer}
    (hstage : r.stage = .acquire idx) (hp : r.up.peers[idx]? = some p)
    : Disciplined { request := { r with acquired := r.acquired ++ [p.addr] }, outcomes }
      ∧ r.acquired ++ [p.addr] ⊆ r.up.addrs := by
  have hbetween := h.searching (by dsimp only; rw [hstage]; rfl)
  have huntried : p.addr ∉ r.ctx.tried := by
    apply hbetween.untried idx _ p hp
    dsimp only
    rw [hstage]
    exact List.mem_singleton_self idx
  have hnodup : (r.acquired ++ [p.addr]).Nodup := by
    rw [List.nodup_append]
    refine ⟨h.disciplined.nodup, List.nodup_singleton _, ?_⟩
    intro a ha b hb heq
    rw [List.mem_singleton] at hb
    subst hb
    subst heq
    exact huntried (hbetween.tried ha)
  have hsubset : r.acquired ++ [p.addr] ⊆ r.up.addrs := by
    apply List.append_subset.mpr
    refine ⟨h.subset, ?_⟩
    intro a ha
    rw [List.mem_singleton] at ha
    rw [ha]
    exact List.mem_map_of_mem (List.mem_of_getElem? hp)
  refine ⟨⟨hnodup, ?_, ?_, ?_⟩, hsubset⟩
  . unfold Request.budget
    dsimp only
    split
    . next hkind =>
      rcases hbetween.attempt hkind with ⟨hattempt, hretries⟩
      dsimp only at hattempt hretries
      rw [List.length_append, List.length_singleton]
      omega
    . exact length_le_dedup hnodup hsubset
  . have hpaired := hbetween.paired
    dsimp only at hpaired ⊢
    rw [List.length_append, List.length_singleton]
    omega
  . intro j hj
    have hpaired := hbetween.paired
    dsimp only at hpaired hj ⊢
    rw [List.length_append, List.length_singleton] at hj
    have hlt : j < outcomes.length := by omega
    exact ⟨outcomes[j], List.getElem?_eq_getElem hlt, hbetween.resent _ (List.getElem_mem hlt)⟩

theorem inv_taken (h : Inv { request := r, outcomes }) {idx : Nat} {p : Peer}
    (hstage : r.stage = .acquire idx) (hp : r.up.peers[idx]? = some p)
    (hkept : Request.Kept { r with acquired := r.acquired ++ [p.addr] } r')
    (hstage' : r'.stage = .build idx ∨ r'.stage = .wait idx)
    : Inv { request := r', outcomes } := by
  have hbetween := h.searching (by dsimp only; rw [hstage]; rfl)
  rcases disciplined_taken h hstage hp with ⟨hdisciplined, hsubset⟩
  have hunder : Under { request := { r with acquired := r.acquired ++ [p.addr] }, outcomes } idx []
      r.acquired outcomes :=
    ⟨⟨p, hp, rfl⟩, (List.append_nil _).symm, hbetween.tried, hbetween.paired, hbetween.resent,
      hbetween.attempt⟩
  refine ⟨hkept.session h.session, hdisciplined.fixed hkept.toFixed, ?_, ?_, ?_, ?_⟩
  . exact subset_fixed hsubset hkept.toFixed
  . intro hsearching
    rcases hstage' with hstage' | hstage' <;> simp [hstage', Stage.searching] at hsearching
  . intro idx' hstage''
    have heq : idx' = idx := by
      rcases hstage' with hstage' | hstage' <;> simpa [hstage', eq_comm] using hstage''
    subst heq
    exact ⟨_, _, hunder.kept hkept h.session⟩
  . intro idx' o hended
    rcases hstage' with hstage' | hstage' <;> simp [hstage'] at hended

theorem inv_built (h : Inv { request := r, outcomes }) {idx : Nat} (hstage : r.stage = .build idx)
    (hkept : Request.Kept r r') (hstage' : r'.stage = .wait idx)
    : Inv { request := r', outcomes } := by
  rcases h.under idx (.inl hstage) with ⟨prev, past, hunder⟩
  refine ⟨hkept.session h.session, h.disciplined.fixed hkept.toFixed, ?_, ?_, ?_, ?_⟩
  . exact subset_fixed h.subset hkept.toFixed
  . simp [hstage', Stage.searching]
  . intro idx' hstage''
    have heq : idx' = idx := by simpa [hstage', eq_comm] using hstage''
    subst heq
    exact ⟨prev, past, hunder.kept hkept h.session⟩
  . simp [hstage']

theorem inv_recorded (h : Inv { request := r, outcomes }) {idx : Nat} {o : Outcome}
    (hstage : r.stage = .record idx o) (hkept : Request.Kept r r') (hstage' : r'.stage = .release idx o)
    : Inv { request := r', outcomes } := by
  rcases h.ended idx o (.inl hstage) with ⟨⟨prev, past, hunder⟩, hconnects⟩
  refine ⟨hkept.session h.session, h.disciplined.fixed hkept.toFixed, ?_, ?_, ?_, ?_⟩
  . exact subset_fixed h.subset hkept.toFixed
  . simp [hstage', Stage.searching]
  . simp [hstage']
  . intro idx' o' hstage''
    have heq : idx' = idx ∧ o' = o := by simpa [hstage', eq_comm] using hstage''
    rcases heq with ⟨rfl, rfl⟩
    refine ⟨⟨prev, past, hunder.kept hkept h.session⟩, ?_⟩
    dsimp only
    rw [hkept.kind, hkept.method]
    exact hconnects

theorem inv_ended (h : Inv { request := r, outcomes }) {idx : Nat} {o : Outcome}
    (hstage : r.stage = .wait idx)
    (hconnects : r.kind = .websocket → Input.failsLate (.outcome o) = true → isIdempotent r.method = true)
    (hkept : Request.Kept r r') (hstage' : r'.stage = .record idx o ∨ r'.stage = .release idx o)
    : Inv { request := r', outcomes := outcomes ++ [o] } := by
  rcases h.under idx (.inr hstage) with ⟨prev, past, hunder⟩
  have houtcomes := hunder.outcomes
  dsimp only at houtcomes
  rw [List.append_nil] at houtcomes
  subst houtcomes
  rcases hunder.acquired with ⟨p, hp, hacquired⟩
  dsimp only at hp hacquired
  have hpaired := hunder.paired
  have hended : Disciplined { request := r, outcomes := outcomes ++ [o] } := by
    refine ⟨h.disciplined.nodup, h.disciplined.bounded, ?_, ?_⟩
    . dsimp only
      rw [hacquired, List.length_append, List.length_append, List.length_singleton, List.length_singleton]
      omega
    . intro j hj
      rcases h.disciplined.resent j hj with ⟨o', ho', hresend⟩
      refine ⟨o', ?_, hresend⟩
      dsimp only at ho' ⊢
      rw [List.getElem?_append_left (List.getElem?_eq_some_iff.mp ho').1]
      exact ho'
  have hunder' : Under { request := r, outcomes := outcomes ++ [o] } idx [o] prev outcomes :=
    { hunder with outcomes := rfl, acquired := ⟨p, hp, hacquired⟩ }
  refine ⟨hkept.session h.session, hended.fixed hkept.toFixed, ?_, ?_, ?_, ?_⟩
  . exact subset_fixed h.subset hkept.toFixed
  . rcases hstage' with hstage' | hstage' <;> simp [hstage', Stage.searching]
  . rcases hstage' with hstage' | hstage' <;> simp [hstage']
  . intro idx' o' hstage''
    have heq : idx' = idx ∧ o' = o := by
      rcases hstage' with hstage' | hstage' <;> simpa [hstage', eq_comm] using hstage''
    rcases heq with ⟨rfl, rfl⟩
    refine ⟨⟨prev, outcomes, hunder'.kept hkept h.session⟩, ?_⟩
    dsimp only
    rw [hkept.kind, hkept.method]
    exact hconnects

theorem mayResend_of_mayRetryAfter {o : Outcome} (h : r.mayRetryAfter o = true) : r.MayResend o := by
  unfold Request.mayRetryAfter mayRetry at h
  constructor
  . intro hmethod
    cases o with
    | answered status => cases h
    | failed err =>
      cases err <;> simp [hmethod, failureKind] at h ⊢
    | timedOut => simp [hmethod] at h
  . rintro - rfl
    simp only [Bool.and_eq_true] at h
    rcases h with ⟨hmethod, htimeout⟩
    constructor
    . by_contra hnot
      simp [hnot] at hmethod
    . unfold mayRetryTimeout at htimeout
      rw [Bool.and_eq_true] at htimeout
      exact htimeout.1

theorem mayResend_of_websocket {o : Outcome} (hkind : r.kind = .websocket)
    (hconnects : Input.failsLate (.outcome o) = true → isIdempotent r.method = true)
    (hanswered : ∀ status, o ≠ .answered status)
    : r.MayResend o := by
  constructor
  . intro hmethod
    rw [hmethod] at hconnects
    cases o with
    | answered status => exact absurd rfl (hanswered status)
    | failed err =>
      cases err with
      | connect => rfl
      | _ => exact absurd (hconnects rfl) (by decide)
    | timedOut => exact absurd (hconnects rfl) (by decide)
  . intro hhttp
    rw [hkind] at hhttp
    cases hhttp

theorem mem_markTried {idx : Nat} {p : Peer} (hp : r.up.peers[idx]? = some p) (a : SocketAddr)
    (ha : a ∈ r.ctx.tried ∨ a = p.addr)
    : a ∈ (r.markTried idx).ctx.tried := by
  unfold Request.markTried
  rw [hp]
  change a ∈ (r.ctx.markTried p.addr).tried
  unfold ReqCtx.markTried
  split
  . next htried =>
    rcases ha with ha | rfl
    . exact ha
    . simpa [ReqCtx.isTried] using htried
  . rw [List.mem_append, List.mem_singleton]
    exact ha

theorem inv_again (h : Inv { request := r, outcomes }) {idx : Nat} {o : Outcome}
    (hstage : r.stage = .release idx o) (hfixed : Request.Fixed r r')
    (htried : r'.ctx.tried = (r.markTried idx).ctx.tried) (hstage' : r'.stage = .pick)
    (hanswered : ∀ status, o ≠ .answered status)
    (hhttp : r.kind = .http
      → r.mayRetryAfter o = true ∧ r.attempt + 1 < r.attempts ∧ r'.attempt = r.attempt + 1)
    : Inv { request := r', outcomes } := by
  rcases h.ended idx o (.inr hstage) with ⟨⟨prev, past, hunder⟩, hconnects⟩
  rcases hunder.acquired with ⟨p, hp, hacquired⟩
  dsimp only at hp hacquired
  have houtcomes := hunder.outcomes
  have hpaired := hunder.paired
  dsimp only at houtcomes
  -- A handshake is sent again when it could not connect, or when its method is idempotent.
  have hresend : r.MayResend o := by
    cases hkind : r.kind with
    | http => exact mayResend_of_mayRetryAfter (hhttp hkind).1
    | websocket => exact mayResend_of_websocket hkind (hconnects hkind) hanswered
  have hmarked := mem_markTried hp
  have hbetween : Between { request := r', outcomes } := by
    refine ⟨?_, ?_, ?_, ?_, ?_⟩
    . dsimp only
      rw [hfixed.acquired, hacquired, htried]
      intro a ha
      rcases List.mem_append.mp ha with hprev | hlast
      . exact hmarked a (.inl (hunder.tried hprev))
      . exact hmarked a (.inr (List.mem_singleton.mp hlast))
    . dsimp only
      rw [hfixed.acquired, hacquired, houtcomes, List.length_append, List.length_append, hpaired]
      rfl
    . dsimp only
      rw [houtcomes]
      intro o' ho'
      rw [mayResend_fixed hfixed]
      rcases List.mem_append.mp ho' with hpast | hlast
      . exact hunder.resent o' hpast
      . rw [List.mem_singleton] at hlast
        rw [hlast]
        exact hresend
    . intro hkind
      dsimp only at hkind ⊢
      rw [hfixed.kind] at hkind
      rcases hhttp hkind with ⟨-, hlt, hattempt⟩
      rcases hunder.attempt hkind with ⟨hprev, hretries⟩
      dsimp only at hprev hretries
      rw [hfixed.acquired, hacquired, hattempt, hfixed.up, List.length_append, List.length_singleton]
      have hbound : r.attempts ≤ r.up.retries + 1 := Nat.mod_le ..
      omega
    . dsimp only
      rw [hstage']
      nofun
  refine ⟨hfixed.session h.session, h.disciplined.fixed hfixed, ?_, fun _ => hbetween, ?_, ?_⟩
  . exact subset_fixed h.subset hfixed
  . simp [hstage']
  . simp [hstage']

theorem inv_step {l l' : AttemptLoop γ ω} {e : AppState ω × Input} (h : l.Inv) (hok : l.HandshakeConnects e)
    (hstep : l.step e = some l')
    : l'.Inv := by
  unfold step at hstep
  rcases Option.map_eq_some_iff.mp hstep with ⟨y, hact, rfl⟩
  rcases l with ⟨r, outcomes⟩
  dsimp only at hact
  have hends (hstage : ∀ idx, r.stage ≠ .wait idx) : outcomes ++ r.ends e.2 = outcomes := by
    rw [Request.ends_eq_nil hstage, List.append_nil]
  cases Request.retries_of_act hact with
  | searched hstage hkept hstage' huntried =>
    dsimp only
    rw [hends (fun idx hwait => by rw [hwait] at hstage; cases hstage)]
    exact inv_searched h hstage hkept hstage' huntried
  | taken hstage hp hkept hstage' =>
    dsimp only
    rw [hends (by rw [hstage]; nofun)]
    exact inv_taken h hstage hp hkept hstage'
  | built hstage hkept hstage' =>
    dsimp only
    rw [hends (by rw [hstage]; nofun)]
    exact inv_built h hstage hkept hstage'
  | @ended idx o hstage hx hkept hstage' =>
    have hends' : r.ends e.2 = [o] := by
      unfold Request.ends
      rw [hstage, hx]
    dsimp only
    rw [hends']
    unfold HandshakeConnects at hok
    rw [hx] at hok
    exact inv_ended h hstage hok hkept hstage'
  | recorded hstage hkept hstage' =>
    dsimp only
    rw [hends (by rw [hstage]; nofun)]
    exact inv_recorded h hstage hkept hstage'
  | again hstage hfixed htried hstage' hanswered hhttp =>
    dsimp only
    rw [hends (by rw [hstage]; nofun)]
    exact inv_again h hstage hfixed htried hstage' hanswered hhttp
  | settled hends' hfixed hstage' =>
    dsimp only
    rw [hends', List.append_nil]
    exact inv_settled h hfixed hstage'

end inv

end AttemptLoop

end OpenRusty
