import OpenRusty.Server.Lifecycle
import OpenRusty.Server.Pipeline.Selection

/-!
This module contains the proof that the log phase is run exactly once, and as the last phase of all.
Whoever is in charge of a request has not logged it yet: the handler, its attempts, the streamed body
and the tunnel hand a request on without the log phase, and each of them logs it when it ends it.
-/

namespace OpenRusty

def LoggedOnce (ran : List Phase) : Prop := ∃ before, ran = before ++ [.log] ∧ .log ∉ before

theorem loggedOnce_concat {ran : List Phase} (h : .log ∉ ran) : LoggedOnce (ran ++ [.log]) := by
  exact ⟨ran, rfl, h⟩

theorem log_not_mem_concat {ran : List Phase} {phase : Phase} (h : .log ∉ ran) (hphase : .log ≠ phase)
    : .log ∉ ran ++ [phase] := by
  rw [List.mem_append, List.mem_singleton, not_or]
  exact ⟨h, hphase⟩

namespace Request

variable {γ ω : Type}

def Accounted (r : Request γ ω) : Prop :=
  r.inProgress = true ∧ .log ∉ r.ran ∨ (∃ status, r.stage = .done status) ∧ LoggedOnce r.ran

variable {s : AppState ω} {r : Request γ ω}

theorem accounted_finishLog (h : .log ∉ r.ran) (status : Nat) : (r.finishLog s status).2.Accounted := by
  right
  exact ⟨⟨status, rfl⟩, loggedOnce_concat h⟩

theorem accounted_pick (h : .log ∉ r.ran) : (r.pick s).2.Accounted := by
  have hbegin : r.beginAttempt.ran = r.ran := by
    unfold beginAttempt
    split
    . rfl
    . rfl
  have hbalancer : .log ∉ r.beginAttempt.ran ++ [Phase.balancer] := by
    rw [hbegin]
    apply log_not_mem_concat h
    decide
  unfold pick
  dsimp only
  split
  . apply accounted_finishLog
    exact hbalancer
  . split
    . left
      exact ⟨rfl, hbalancer⟩
    . left
      exact ⟨rfl, hbalancer⟩

theorem accounted_testPin (h : .log ∉ r.ran) (i nowMs : Nat) : (r.testPin s i nowMs).Accounted := by
  unfold testPin
  split
  . left
    exact ⟨rfl, h⟩
  . left
    exact ⟨rfl, h⟩

theorem accounted_listHealthy (h : .log ∉ r.ran) (nowMs : Nat)
    : (r.listHealthy s nowMs).2.Accounted := by
  unfold listHealthy
  dsimp only
  split
  . apply accounted_finishLog h
  . left
    exact ⟨rfl, h⟩

theorem accounted_chosen (h : .log ∉ r.ran) (i : Option Nat) : (r.chosen s i).2.Accounted := by
  unfold chosen
  split
  . left
    exact ⟨rfl, h⟩
  . apply accounted_finishLog h

theorem accounted_choose (h : .log ∉ r.ran) (candidates : List Nat)
    : (r.choose s candidates).2.Accounted := by
  unfold choose
  split
  . split
    . apply accounted_chosen h
    . apply accounted_chosen h
  . apply accounted_chosen h
  . apply accounted_chosen h

theorem accounted_acquire {y : AppState ω × Request γ ω} (h : .log ∉ r.ran) {idx : Nat}
    (hy : r.acquire s idx = some y)
    : y.2.Accounted := by
  unfold acquire at hy
  rcases Option.map_eq_some_iff.mp hy with ⟨peer, -, rfl⟩
  dsimp only
  left
  unfold forward
  dsimp only
  split
  . exact ⟨rfl, h⟩
  . exact ⟨rfl, h⟩

theorem accounted_answer (h : .log ∉ r.ran) (idx : Nat) (o : Outcome) : (r.answer idx o).Accounted := by
  unfold answer
  split
  . left
    exact ⟨rfl, h⟩
  . left
    exact ⟨rfl, h⟩

theorem ran_releasePeer (s : AppState ω) (r : Request γ ω) (idx : Nat)
    : (r.releasePeer s idx).2.ran = r.ran
      ∧ (r.releasePeer s idx).2.kind = r.kind := by
  unfold releasePeer
  split
  . exact ⟨rfl, rfl⟩
  . exact ⟨rfl, rfl⟩

theorem ran_markTried (r : Request γ ω) (idx : Nat) : (r.markTried idx).ran = r.ran := by
  unfold markTried
  split
  . rfl
  . rfl

theorem accounted_nextAttempt (h : .log ∉ r.ran) : (r.nextAttempt s).2.Accounted := by
  unfold nextAttempt
  split
  . left
    exact ⟨rfl, h⟩
  . apply accounted_finishLog h

theorem accounted_afterRelease (h : .log ∉ r.ran) (idx : Nat) {o : Outcome}
    (hkept : r.kind = .http → ∀ status, o ≠ .answered status)
    : (r.afterRelease s idx o).2.Accounted := by
  have htried : .log ∉ (r.markTried idx).ran := by
    rw [ran_markTried]
    exact h
  unfold afterRelease
  split
  . next status hkind => exact absurd rfl (hkept hkind status)
  . split
    . apply accounted_nextAttempt htried
    . apply accounted_finishLog h
  . split
    . left
      exact ⟨rfl, h⟩
    . apply accounted_finishLog h
  . left
    exact ⟨rfl, htried⟩

theorem accounted_release (h : .log ∉ r.ran) (idx : Nat) {o : Outcome}
    (hkept : r.kind = .http → ∀ status, o ≠ .answered status)
    : (r.release s idx o).2.Accounted := by
  rcases ran_releasePeer s r idx with ⟨hran, hkind⟩
  have hafter : (((r.releasePeer s idx).2).afterRelease (r.releasePeer s idx).1 idx o).2.Accounted := by
    apply accounted_afterRelease
    . rw [hran]
      exact h
    . rw [hkind]
      exact hkept
  exact hafter

theorem ran_release_answered (hhttp : r.kind = .http) (idx status : Nat)
    : (r.release s idx (.answered status)).2.ran = r.ran := by
  rcases ran_releasePeer s r idx with ⟨hran, hkind⟩
  have hafter : (((r.releasePeer s idx).2).afterRelease (r.releasePeer s idx).1 idx
      (.answered status)).2.ran = (r.releasePeer s idx).2.ran := by
    unfold afterRelease
    rw [hkind, hhttp]
  rw [← hran]
  exact hafter

theorem handOver_cases {next : HandOver} (h : r.handOver = some next)
    : (r.kind = .http ∧ ∃ idx status, r.stage = .release idx (.answered status))
        ∨
      ∃ idx, r.stage = .accept idx := by
  unfold handOver at h
  split at h
  . next hkind hstage =>
    left
    exact ⟨hkind, _, _, hstage⟩
  . next hstage =>
    right
    exact ⟨_, hstage⟩
  . cases h

theorem ran_of_handOver {x : Input} {y : AppState ω × Request γ ω} {next : HandOver}
    (hover : r.handOver = some next) (hact : r.act s x = some y)
    : y.2.ran = r.ran := by
  rcases handOver_cases hover with ⟨hhttp, idx, status, hstage⟩ | ⟨idx, hstage⟩
  . cases x with
    | tick =>
      simp only [act, hstage, Option.some.injEq] at hact
      rw [← hact]
      apply ran_release_answered hhttp
    | _ => simp [act, hstage] at hact
  . cases x with
    | tick =>
      simp only [act, hstage, Option.some.injEq] at hact
      rw [← hact]
      rfl
    | _ => simp [act, hstage] at hact

theorem accounted_of_act {x : Input} {y : AppState ω × Request γ ω} (h : .log ∉ r.ran)
    (hover : r.handOver = none) (hact : r.act s x = some y)
    : y.2.Accounted ∨ y.2.stage = .dropped := by
  unfold act at hact
  split at hact
  . cases hact
    exact .inl (accounted_pick h)
  . cases hact
    exact .inl (accounted_testPin h _ _)
  . cases hact
    exact .inl (accounted_listHealthy h _)
  . cases hact
    exact .inl (accounted_choose h _)
  . exact .inl (accounted_acquire h hact)
  . cases hact
    exact .inl (.inl ⟨rfl, h⟩)
  . cases hact
    exact .inl (accounted_finishLog h _)
  . cases hact
    exact .inl (accounted_answer h _ _)
  . cases hact
    exact .inr rfl
  . cases hact
    exact .inl (.inl ⟨rfl, h⟩)
  . next hstage =>
    cases hact
    left
    apply accounted_release h
    intro hhttp status hstatus
    simp [handOver, hstage, hhttp, hstatus] at hover
  . next hstage => simp [handOver, hstage] at hover
  . cases hact

end Request

namespace FilteredBody

variable {γ ω : Type}

structure Open (b : FilteredBody γ ω) : Prop where
  inner : b.inner = true
  lastSent : b.lastSent = false
  logDone : b.logDone = false
  ran : .log ∉ b.exchange.ran

structure Closed (b : FilteredBody γ ω) : Prop where
  inner : b.inner = false
  lastSent : b.lastSent = true
  logDone : b.logDone = true
  ran : LoggedOnce b.exchange.ran

variable {b : FilteredBody γ ω}

theorem finalize_of_closed (h : b.Closed) (w : World ω) : b.finalize w = (b, w) := by
  unfold finalize sendLast log
  rw [h.lastSent, if_pos rfl]
  dsimp only
  rw [h.logDone, if_pos rfl]

theorem finalize_of_open (hlast : b.lastSent = false) (hlog : b.logDone = false)
    (hran : .log ∉ b.exchange.ran) (w : World ω)
    : (b.finalize w).1.inner = b.inner ∧ (b.finalize w).1.lastSent = true
      ∧ (b.finalize w).1.logDone = true ∧ LoggedOnce (b.finalize w).1.exchange.ran := by
  have hfilter : .log ∉ b.exchange.ran ++ [Phase.bodyFilter] := by
    apply log_not_mem_concat hran
    decide
  unfold finalize sendLast log
  rw [hlast, if_neg (by decide)]
  dsimp only
  rw [hlog, if_neg (by decide)]
  exact ⟨rfl, rfl, rfl, loggedOnce_concat hfilter⟩

theorem closed_finalize (hinner : b.inner = false) (hlast : b.lastSent = false)
    (hlog : b.logDone = false) (hran : .log ∉ b.exchange.ran) (w : World ω)
    : (b.finalize w).1.Closed := by
  rcases finalize_of_open hlast hlog hran w with ⟨hinner', hlast', hlog', hran'⟩
  rw [hinner] at hinner'
  exact ⟨hinner', hlast', hlog', hran'⟩

theorem pollFrame_of_open (h : b.Open) (polled : Polled) (w : World ω)
    : (b.pollFrame polled w).1.Open ∨ (b.pollFrame polled w).1.Closed := by
  unfold pollFrame
  rw [if_pos h.inner]
  cases polled with
  | pending =>
    left
    exact h
  | data chunk =>
    left
    refine ⟨h.inner, h.lastSent, h.logDone, ?_⟩
    apply log_not_mem_concat h.ran
    decide
  | trailers =>
    left
    exact h
  | error =>
    right
    exact closed_finalize (b := { b with inner := false }) rfl h.lastSent h.logDone h.ran w
  | ended =>
    right
    exact closed_finalize (b := { b with inner := false }) rfl h.lastSent h.logDone h.ran w

theorem pollFrame_of_closed (h : b.Closed) (polled : Polled) (w : World ω)
    : b.pollFrame polled w = (b, w) := by
  unfold pollFrame
  rw [h.inner, if_neg (by decide)]

theorem open_or_closed_pollFrame (h : b.Open ∨ b.Closed) (polled : Polled) (w : World ω)
    : (b.pollFrame polled w).1.Open ∨ (b.pollFrame polled w).1.Closed := by
  cases h with
  | inl h => exact pollFrame_of_open h polled w
  | inr h =>
    rw [pollFrame_of_closed h]
    right
    exact h

theorem loggedOnce_drop (h : b.Open ∨ b.Closed) (w : World ω)
    : LoggedOnce (b.drop w).1.exchange.ran := by
  unfold drop
  cases h with
  | inl h => exact (finalize_of_open h.lastSent h.logDone h.ran w).2.2.2
  | inr h =>
    rw [finalize_of_closed h]
    exact h.ran

end FilteredBody

def LifeStage.Accounted {γ ω : Type} (stage : LifeStage γ ω) : Prop :=
  match stage with
  | .arrived => True
  | .phases _ x rest => .log ∉ x.ran ∧ .log ∉ rest
  | .readBody _ x => .log ∉ x.ran
  | .content _ x => .log ∉ x.ran
  | .attempts r => .log ∉ r.ran ∧ r.InRange ∧ r.inProgress = true
  | .headerFilter _ x => .log ∉ x.ran
  | .streaming _ body => body.Open ∨ body.Closed
  | .upgraded x => .log ∉ x.ran
  | .tunnel x => .log ∉ x.ran
  | .finished _ ran => LoggedOnce ran
  | .cancelled => True

namespace Life

variable {γ ω : Type} {s : AppState ω} {x : Exchange γ ω}

theorem accounted_finishLog (h : .log ∉ x.ran) (status : Nat) : (finishLog s x status).2.Accounted := by
  exact loggedOnce_concat h

theorem accounted_settle (h : .log ∉ x.ran) (d : Decision) {next : AppState ω × LifeStage γ ω}
    (hnext : next.2.Accounted)
    : (settle s d x next).2.Accounted := by
  unfold settle
  split
  . apply accounted_finishLog h
  . apply accounted_finishLog h
  . exact hnext

theorem accounted_startAttempts (h : .log ∉ x.ran) (kind : RequestKind) (method : String) (pin : Pinned)
    : (startAttempts s kind method pin x).2.Accounted := by
  unfold startAttempts
  dsimp only
  split
  . apply accounted_finishLog h
  . refine ⟨h, ?_, rfl⟩
    intro idx hidx
    cases hidx

theorem accounted_branch (h : .log ∉ x.ran) (req : HttpRequest) (pin : Pinned)
    : (branch s req pin x).2.Accounted := by
  unfold branch
  split
  . split
    . apply accounted_finishLog h
    . apply accounted_startAttempts h
  . exact h

theorem accounted_runPhases (h : .log ∉ x.ran) (req : HttpRequest) (pin : Pinned) {rest : List Phase}
    (hrest : .log ∉ rest)
    : (runPhases s req pin x rest).2.Accounted := by
  cases rest with
  | nil => exact accounted_branch h req pin
  | cons phase rest =>
    rw [List.mem_cons, not_or] at hrest
    have hran : .log ∉ (x.runPhase phase s.world).2.1.ran := by
      apply log_not_mem_concat h hrest.1
    unfold runPhases
    dsimp only
    apply accounted_settle hran
    exact ⟨hran, hrest.2⟩

theorem accounted_gotBody (h : .log ∉ x.ran) (pin : Pinned) (body : Option Bytes)
    : (gotBody s pin x body).2.Accounted := by
  unfold gotBody
  split
  . exact h
  . apply accounted_finishLog h

theorem accounted_runContent (h : .log ∉ x.ran) (req : HttpRequest) (pin : Pinned)
    : (runContent s req pin x).2.Accounted := by
  have hran : .log ∉ (x.runPhase .content s.world).2.1.ran := by
    apply log_not_mem_concat h
    decide
  unfold runContent
  apply accounted_settle hran
  apply accounted_startAttempts hran

theorem accounted_afterAttempt {r : Request γ ω} {input : Input} {y : AppState ω × Request γ ω}
    (h : .log ∉ r.ran) (hrange : r.InRange) (hact : r.act s input = some y)
    : (afterAttempt r y.2).Accounted := by
  unfold afterAttempt
  cases hover : r.handOver with
  | some next =>
    have hran : .log ∉ y.2.ran := by
      rw [Request.ran_of_handOver hover hact]
      exact h
    cases next with
    | response status => exact hran
    | upgraded => exact hran
  | none =>
    dsimp only
    rcases Request.accounted_of_act h hover hact
      with (⟨hprogress, hran⟩ | ⟨⟨status, hstage⟩, hran⟩) | hstage
    . split
      . next hstage => simp [Request.inProgress, hstage] at hprogress
      . trivial
      . exact ⟨hran, hrange.act hact, hprogress⟩
    . rw [hstage]
      exact hran
    . rw [hstage]
      trivial

theorem accounted_filterHeaders (h : .log ∉ x.ran) (status : Nat)
    (headers : List (String × Option String))
    : (filterHeaders s status x headers).2.Accounted := by
  have hran : .log ∉ x.ran ++ [Phase.headerFilter] := by
    apply log_not_mem_concat h
    decide
  unfold filterHeaders
  dsimp only
  split
  . apply accounted_finishLog
    exact hran
  . left
    exact ⟨rfl, rfl, rfl, hran⟩

/-- The only request that ends without the log phase is one without a route to a known upstream. -/
def Accounted (logOnNoRoute : Bool) (l : Life γ ω) : Prop :=
  l.stage.Accounted
    ∨ l.routed = false ∧ logOnNoRoute = false ∧ ∃ status, l.stage = .finished status []

variable {logOnNoRoute : Bool} {l : Life γ ω}

theorem accounted_unrouted (logOnNoRoute : Bool) (s : AppState ω) (l : Life γ ω)
    (routing : Option Nat × Option String) (status : Nat)
    : (unrouted logOnNoRoute s l routing status).2.Accounted
        ∨
      logOnNoRoute = false ∧ (unrouted logOnNoRoute s l routing status).2 = .finished status [] := by
  unfold unrouted
  split
  . left
    apply accounted_finishLog
    apply List.not_mem_nil
  . next hlog =>
    right
    exact ⟨by simpa using hlog, rfl⟩

theorem accounted_arrive (nowMs : Nat)
    : (arrive logOnNoRoute s l nowMs).2.Accounted logOnNoRoute := by
  unfold arrive
  split
  . cases accounted_unrouted logOnNoRoute s l (none, none) 404 with
    | inl haccounted =>
      left
      exact haccounted
    | inr hlog =>
      right
      exact ⟨rfl, hlog.1, _, hlog.2⟩
  . next i route _ =>
    split
    . cases accounted_unrouted logOnNoRoute s l (some i, some route.upstream) 502 with
      | inl haccounted =>
        left
        exact haccounted
      | inr hlog =>
        right
        exact ⟨rfl, hlog.1, _, hlog.2⟩
    . left
      refine ⟨?_, by decide⟩
      apply List.not_mem_nil

theorem Accounted.act (h : l.Accounted logOnNoRoute) {input : LifeInput}
    {y : AppState ω × Life γ ω} (hact : l.act logOnNoRoute s input = some y)
    : y.2.Accounted logOnNoRoute := by
  rcases h with h | ⟨_, _, status, hfinished⟩
  case inr => simp [Life.act, hfinished] at hact
  unfold Life.act at hact
  split at hact
  . cases hact
    apply accounted_arrive
  . next pin x rest nowMs hstage =>
    cases hact
    rw [hstage] at h
    left
    exact accounted_runPhases h.1 l.req pin h.2
  . next pin x body hstage =>
    cases hact
    rw [hstage] at h
    left
    exact accounted_gotBody h pin body
  . cases hact
    left
    trivial
  . next pin x nowMs hstage =>
    cases hact
    rw [hstage] at h
    left
    exact accounted_runContent h l.req pin
  . next r x hstage =>
    rcases Option.map_eq_some_iff.mp hact with ⟨y, hy, rfl⟩
    rw [hstage] at h
    left
    exact accounted_afterAttempt h.1 h.2.1 hy
  . next status x headers hstage =>
    cases hact
    rw [hstage] at h
    left
    exact accounted_filterHeaders h status headers
  . next status body polled hstage =>
    cases hact
    rw [hstage] at h
    left
    exact FilteredBody.open_or_closed_pollFrame h polled s.world
  . next status body hstage =>
    cases hact
    rw [hstage] at h
    left
    exact FilteredBody.loggedOnce_drop h s.world
  . next x hstage =>
    cases hact
    rw [hstage] at h
    left
    exact h
  . next x hstage =>
    cases hact
    rw [hstage] at h
    left
    exact accounted_finishLog h 502
  . next x e hstage =>
    cases hact
    rw [hstage] at h
    left
    exact accounted_finishLog h 101
  . cases hact

def ended (l : Life γ ω) : Option (List Phase) :=
  match l.stage with
  | .finished _ ran => some ran
  | .streaming _ body => if body.inner then none else some body.exchange.ran
  | _ => none

def isOver (l : Life γ ω) : Bool :=
  match l.stage with
  | .finished _ _ => true
  | .cancelled => true
  | _ => false

theorem Accounted.exists_act (h : l.Accounted logOnNoRoute) (hover : l.isOver = false) (s : AppState ω)
    : ∃ x y, l.act logOnNoRoute s x = some y := by
  rcases h with h | ⟨_, _, status, hfinished⟩
  case inr => simp [isOver, hfinished] at hover
  unfold isOver at hover
  cases hstage : l.stage with
  | arrived | phases pin x rest | content pin x => exact ⟨.tick 0, _, by simp only [Life.act, hstage]; rfl⟩
  | readBody pin x => exact ⟨.body none, _, by simp only [Life.act, hstage]; rfl⟩
  | attempts r =>
    rw [hstage] at h
    rcases Request.exists_act (s := s) h.2.1 h.2.2 with ⟨x, y, hact⟩
    exact ⟨.attempt x, _, by simp only [Life.act, hstage, hact]; rfl⟩
  | headerFilter status x => exact ⟨.response [], _, by simp only [Life.act, hstage]; rfl⟩
  | streaming status body => exact ⟨.drop, _, by simp only [Life.act, hstage]; rfl⟩
  | upgraded x => exact ⟨.built true, _, by simp only [Life.act, hstage]; rfl⟩
  | tunnel x => exact ⟨.tunnelEnd .closed, _, by simp only [Life.act, hstage]; rfl⟩
  | finished status ran => simp [hstage] at hover
  | cancelled => simp [hstage] at hover

theorem Accounted.loggedOnce (h : l.Accounted logOnNoRoute)
    (hcovered : l.routed = true ∨ logOnNoRoute = true) {ran : List Phase} (hended : l.ended = some ran)
    : LoggedOnce ran := by
  have hstage : l.stage.Accounted := by
    cases h with
    | inl h => exact h
    | inr h =>
      rw [h.1, h.2.1] at hcovered
      simp at hcovered
  unfold ended at hended
  split at hended
  . next heq =>
    cases hended
    rw [heq] at hstage
    exact hstage
  . next heq =>
    rw [heq] at hstage
    split at hended
    . cases hended
    . next hinner =>
      cases hended
      cases hstage with
      | inl hopen => exact absurd hopen.inner hinner
      | inr hclosed => exact hclosed.ran
  . cases hended

end Life

namespace Gateway

variable {γ ω : Type}

theorem accounted_of_run {logOnNoRoute : Bool} {world : World ω}
    {es : List (Pool.Event (GatewayArrival γ ω) GatewayInput)}
    {p : Pool (AppState ω) (GatewayTask γ ω)}
    (hrun : Machine.run (step logOnNoRoute) (init world) es = some p)
    : ∀ (i : Nat) t, p.threads[i]? = some t → ∀ l, t = .life l → l.Accounted logOnNoRoute := by
  apply Machine.inv_of_run_all _ _ hrun
  . intro p e q hp hstep
    apply Pool.forall_step spawn (act logOnNoRoute) _ _ hp hstep
    . intro a l hl
      cases a with
      | request req remote plugins =>
        cases hl
        left
        trivial
      | other a => cases hl
    . intro s t x s' t' ht hact l hl
      subst hl
      unfold act at hact
      split at hact
      . next l' _ =>
        rcases Option.map_eq_some_iff.mp hact with ⟨y, hy, heq⟩
        cases heq
        exact (ht l' rfl).act hy
      . rcases Option.map_eq_some_iff.mp hact with ⟨y, hy, heq⟩
        cases heq
      . cases hact
  . intro i t ht
    cases ht

theorem exists_step_of_life {logOnNoRoute : Bool} {world : World ω}
    {es : List (Pool.Event (GatewayArrival γ ω) GatewayInput)}
    {p : Pool (AppState ω) (GatewayTask γ ω)}
    (hrun : Machine.run (step logOnNoRoute) (init world) es = some p) {i : Nat} {l : Life γ ω}
    (hl : p.threads[i]? = some (.life l)) (hover : l.isOver = false)
    : ∃ x q, step logOnNoRoute p (.step i x) = some q := by
  have haccounted := accounted_of_run hrun i (.life l) hl l rfl
  rcases haccounted.exists_act hover p.shared with ⟨x, y, hact⟩
  refine ⟨.life x, { shared := y.1, threads := p.threads.set i (.life y.2) }, ?_⟩
  simp [step, Pool.step, hl, act, hact]

theorem log_runs_once (logOnNoRoute : Bool) (world : World ω)
    (es : List (Pool.Event (GatewayArrival γ ω) GatewayInput)) (p : Pool (AppState ω) (GatewayTask γ ω))
    (hrun : Machine.run (step logOnNoRoute) (init world) es = some p) (i : Nat) (l : Life γ ω)
    (hl : p.threads[i]? = some (.life l)) (hcovered : l.routed = true ∨ logOnNoRoute = true)
    (ran : List Phase) (hended : l.ended = some ran)
    : ∃ before, ran = before ++ [.log] ∧ .log ∉ before := by
  have haccounted := accounted_of_run hrun i (.life l) hl l rfl
  exact haccounted.loggedOnce hcovered hended

section runs

def soloConfig : Config where
  upstreams := [{ name := "u", peers := [{ addr := { ip := .v4 0x0a000001, port := 80 }, weight := 1 }] }]
  routes := [{ pathPrefix := "/", upstream := "u" }]

def plainRequest : HttpRequest where
  method := "GET"
  uri := { path := "/index" }
  headers := [("host", some "example.com")]

def plainClient : SocketAddr := { ip := .v4 0xc0a80001, port := 50000 }

def lifeStep (x : LifeInput) : Pool.Event (GatewayArrival Unit Unit) GatewayInput := .step 1 (.life x)

def streamedRun : List (Pool.Event (GatewayArrival Unit Unit) GatewayInput) :=
  [ .spawn (.other (.reload soloConfig 1)), .step 0 (.other (.tick 0)), .step 0 (.other (.tick 0)),
    .spawn (.request plainRequest plainClient []) ]
    ++ [.tick 1, .tick 2, .tick 3, .tick 4, .tick 5, .body (some []), .tick 6].map lifeStep
    ++ [.tick 7, .tick 8, .tick 9, .tick 10, .outcome (.answered 200), .tick 11, .tick 12].map
        (fun x => lifeStep (.attempt x))
    ++ [.response [], .poll (.data [104, 105]), .poll .pending, .poll .ended].map lifeStep

def quietWorld : World Unit := { outside := (), errors := ∅ }

def lifeAt (p : Pool (AppState Unit) (GatewayTask Unit Unit)) (i : Nat) : Option (Life Unit Unit) :=
  p.threads[i]?.bind fun t =>
    match t with
    | .life l => some l
    | .other _ => none

def streamedPhases : List Phase :=
  [ .postRead, .rewrite, .access, .content, .balancer, .headerFilter, .bodyFilter, .bodyFilter, .log ]

theorem streamedRun_logged
    : ∃ p l, Machine.run (step false) (init quietWorld) streamedRun = some p
      ∧ p.threads[1]? = some (.life l) ∧ l.routed = true ∧ l.ended = some streamedPhases
      ∧ ∃ before, streamedPhases = before ++ [.log] ∧ .log ∉ before := by
  have hrun : ((Machine.run (step false) (init quietWorld) streamedRun).bind fun p =>
      (lifeAt p 1).map fun l => (l.routed, l.ended)) = some (true, some streamedPhases) := by
    decide +kernel
  rcases Option.bind_eq_some_iff.mp hrun with ⟨p, hp, hlife⟩
  rcases Option.map_eq_some_iff.mp hlife with ⟨l, hl, heq⟩
  cases hrouted : l.routed with
  | false => simp [hrouted] at heq
  | true =>
    have hended : l.ended = some streamedPhases := congrArg Prod.snd heq
    have hthread : p.threads[1]? = some (.life l) := by
      rcases Option.bind_eq_some_iff.mp hl with ⟨t, ht, hmatch⟩
      cases t with
      | life l' =>
        cases hmatch
        exact ht
      | other t => cases hmatch
    refine ⟨p, l, hp, hthread, hrouted, hended, ?_⟩
    exact log_runs_once false quietWorld streamedRun p hp 1 l hthread (.inl hrouted) _ hended

end runs

end Gateway

end OpenRusty
