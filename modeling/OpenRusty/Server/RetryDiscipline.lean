import OpenRusty.Proxy.Health.Active
import OpenRusty.Server.RetryLemmas

/-!
This module contains the discipline of the attempts over whole runs. The attempts of a request are a run of
the loop from its start, also in the gateway, where other requests, reloads and probes take their steps in
between.
-/

namespace OpenRusty

variable {γ ω : Type}

namespace AttemptLoop

def Reached (r : Request γ ω) : Prop :=
  ∃ (s s' : AppState ω) (kind : RequestKind) (method : String) (pin : Pinned) (x : Exchange γ ω)
    (r₀ : Request γ ω) (es : List (AppState ω × Input)) (outcomes : List Outcome),
    x.session.KeepsTried ∧ Life.startAttempts s kind method pin x = (s', .attempts r₀)
      ∧ Machine.run step { request := r₀ } es = some { request := r, outcomes }

theorem reached_start {s s' : AppState ω} {kind : RequestKind} {method : String} {pin : Pinned}
    {x : Exchange γ ω} {r : Request γ ω} (hmodules : x.session.KeepsTried)
    (hstart : Life.startAttempts s kind method pin x = (s', .attempts r))
    : Reached r :=
  ⟨s, s', kind, method, pin, x, r, [], [], hmodules, hstart, rfl⟩

theorem Reached.act {s : AppState ω} {r : Request γ ω} (h : Reached r) {x : Input}
    {y : AppState ω × Request γ ω} (hact : r.act s x = some y)
    : Reached y.2 := by
  rcases h with ⟨s₀, s', kind, method, pin, ex, r₀, es, outcomes, hmodules, hstart, hrun⟩
  refine ⟨s₀, s', kind, method, pin, ex, r₀, es ++ [(s, x)], outcomes ++ r.ends x, hmodules, hstart, ?_⟩
  rw [Machine.run_concat, hrun, Option.bind_some]
  unfold step
  rw [hact]
  rfl

theorem inv_start {s s' : AppState ω} {kind : RequestKind} {method : String} {pin : Pinned}
    {x : Exchange γ ω} {r : Request γ ω} (hmodules : x.session.KeepsTried)
    (hstart : Life.startAttempts s kind method pin x = (s', .attempts r))
    : Inv { request := r } := by
  unfold Life.startAttempts Life.finishLog at hstart
  dsimp only at hstart
  split at hstart
  . cases hstart
  . cases hstart
    have hbetween : Between (γ := γ) (ω := ω) { request := {
        kind := kind, method := method, up := pin.up, cell := pin.cell, session := x.session
        stage := .pick, ran := x.ran } } :=
      ⟨List.nil_subset _, rfl, nofun, fun _ => ⟨rfl, Nat.zero_le _⟩, nofun⟩
    refine ⟨hmodules, ⟨List.nodup_nil, Nat.zero_le _, ⟨Nat.le_refl _, Nat.zero_le _⟩, ?_⟩,
      List.nil_subset _, fun _ => hbetween, ?_, ?_⟩
    . intro j hj
      cases hj
    . nofun
    . nofun

theorem disciplined_of_reached {r : Request γ ω} (h : Reached r)
    (hmethod : r.kind = .websocket → isIdempotent r.method = true)
    : ∃ outcomes, Disciplined { request := r, outcomes } := by
  rcases h with ⟨s, s', kind, method, pin, x, r₀, es, outcomes, hmodules, hstart, hrun⟩
  have hsame : ∀ (l : AttemptLoop γ ω) e l', l.request.kind = r₀.kind ∧ l.request.method = r₀.method →
      l.step e = some l' → l'.request.kind = r₀.kind ∧ l'.request.method = r₀.method := by
    rintro l e l' ⟨hkind, hmeth⟩ hstep
    unfold step at hstep
    rcases Option.map_eq_some_iff.mp hstep with ⟨y, hact, rfl⟩
    rcases Request.same_of_act hact with ⟨hkind', hmeth'⟩
    exact ⟨hkind'.trans hkind, hmeth'.trans hmeth⟩
  have hr := Machine.inv_of_run_all hsame ⟨rfl, rfl⟩ hrun
  have hall : Machine.Guarded step (fun _ _ => True) { request := r₀ } es :=
    Machine.guarded_of_forall (fun _ _ => trivial) _
  have hok : Machine.Guarded step HandshakeConnects { request := r₀ } es := by
    apply Machine.Guarded.of_inv (fun l e l' hl _ => hsame l e l' hl) _ ⟨rfl, rfl⟩ hall
    rintro l e ⟨hkind, hmeth⟩ - hwebsocket -
    rw [hmeth, ← hr.2]
    apply hmethod
    rw [hr.1, ← hkind, hwebsocket]
  have hinv := Machine.inv_of_run (fun _ _ _ h hok hstep => inv_step h hok hstep)
    (inv_start hmodules hstart) hok hrun
  exact ⟨outcomes, hinv.disciplined⟩

end AttemptLoop

def LifeStage.Looping (stage : LifeStage γ ω) : Prop :=
  match stage with
  | .phases _ x _ => x.session.KeepsTried
  | .readBody _ x => x.session.KeepsTried
  | .content _ x => x.session.KeepsTried
  | .attempts r => AttemptLoop.Reached r
  | _ => True

namespace Life

variable {s : AppState ω} {x : Exchange γ ω}

theorem looping_startAttempts (h : x.session.KeepsTried) (kind : RequestKind) (method : String) (pin : Pinned)
    : (startAttempts s kind method pin x).2.Looping := by
  generalize hstart : startAttempts s kind method pin x = started
  rcases started with ⟨s', stage⟩
  have hstart' := hstart
  unfold startAttempts finishLog at hstart
  dsimp only at hstart
  split at hstart
  . cases hstart
    trivial
  . cases hstart
    exact AttemptLoop.reached_start h hstart'

theorem looping_settle (d : Decision) {next : AppState ω × LifeStage γ ω} (hnext : next.2.Looping)
    : (settle s d x next).2.Looping := by
  unfold settle
  split
  . trivial
  . trivial
  . exact hnext

theorem looping_branch (h : x.session.KeepsTried) (req : HttpRequest) (pin : Pinned)
    : (branch s req pin x).2.Looping := by
  unfold branch
  split
  . split
    . trivial
    . apply looping_startAttempts h
  . exact h

theorem looping_runPhases (h : x.session.KeepsTried) (req : HttpRequest) (pin : Pinned) (rest : List Phase)
    : (runPhases s req pin x rest).2.Looping := by
  cases rest with
  | nil => exact looping_branch h req pin
  | cons phase rest =>
    unfold runPhases
    apply looping_settle
    exact (RequestSession.runPhase_keepsTried h phase s.world).1

theorem looping_runContent (h : x.session.KeepsTried) (req : HttpRequest) (pin : Pinned)
    : (runContent s req pin x).2.Looping := by
  unfold runContent
  apply looping_settle
  apply looping_startAttempts
  exact (RequestSession.runPhase_keepsTried h .content s.world).1

theorem looping_gotBody (h : x.session.KeepsTried) (pin : Pinned) (body : Option Bytes)
    : (gotBody s pin x body).2.Looping := by
  unfold gotBody
  split
  . exact h
  . trivial

theorem looping_afterAttempt {r : Request γ ω} {input : Input} {y : AppState ω × Request γ ω}
    (h : AttemptLoop.Reached r) (hact : r.act s input = some y)
    : (afterAttempt r y.2).Looping := by
  unfold afterAttempt
  split
  . trivial
  . trivial
  . split
    . trivial
    . trivial
    . exact h.act hact

theorem looping_unrouted (logOnNoRoute : Bool) (s : AppState ω) (l : Life γ ω)
    (routing : Option Nat × Option String) (status : Nat)
    : (unrouted logOnNoRoute s l routing status).2.Looping := by
  unfold unrouted
  split <;> trivial

theorem looping_arrive {logOnNoRoute : Bool} {l : Life γ ω}
    (h : ∀ plugin ∈ l.plugins, plugin.module.KeepsTried) (nowMs : Nat)
    : (arrive logOnNoRoute s l nowMs).2.stage.Looping := by
  unfold arrive
  split
  . exact looping_unrouted logOnNoRoute s l (none, none) 404
  . split
    . exact looping_unrouted logOnNoRoute s l _ 502
    . intro slot hslot
      rcases List.mem_map.mp hslot with ⟨plugin, hplugin, rfl⟩
      exact h plugin hplugin

theorem looping_act {logOnNoRoute : Bool} {l : Life γ ω}
    (hplugins : ∀ plugin ∈ l.plugins, plugin.module.KeepsTried) (h : l.stage.Looping) {input : LifeInput}
    {y : AppState ω × Life γ ω} (hact : l.act logOnNoRoute s input = some y)
    : y.2.plugins = l.plugins ∧ y.2.stage.Looping := by
  unfold Life.act at hact
  split at hact
  . cases hact
    refine ⟨?_, looping_arrive hplugins _⟩
    unfold arrive
    split
    . rfl
    . split <;> rfl
  . next pin x rest nowMs hstage =>
    cases hact
    rw [hstage] at h
    exact ⟨rfl, looping_runPhases h l.req pin rest⟩
  . next pin x body hstage =>
    cases hact
    rw [hstage] at h
    exact ⟨rfl, looping_gotBody h pin body⟩
  . cases hact
    exact ⟨rfl, trivial⟩
  . next pin x nowMs hstage =>
    cases hact
    rw [hstage] at h
    exact ⟨rfl, looping_runContent h l.req pin⟩
  . next r x hstage =>
    rcases Option.map_eq_some_iff.mp hact with ⟨y, hy, rfl⟩
    rw [hstage] at h
    exact ⟨rfl, looping_afterAttempt h hy⟩
  . next status x headers hstage =>
    cases hact
    refine ⟨rfl, ?_⟩
    unfold act.next filterHeaders
    dsimp only
    split <;> trivial
  . cases hact
    exact ⟨rfl, trivial⟩
  . cases hact
    exact ⟨rfl, trivial⟩
  . cases hact
    exact ⟨rfl, trivial⟩
  . cases hact
    exact ⟨rfl, trivial⟩
  . cases hact
    exact ⟨rfl, trivial⟩
  . cases hact

end Life

namespace Gateway

theorem reached_of_run {logOnNoRoute : Bool} {world : World ω}
    {es : List (Pool.Event (GatewayArrival γ ω) GatewayInput)} {p : Pool (AppState ω) (GatewayTask γ ω)}
    (hplugins : ∀ req remote plugins, .spawn (.request req remote plugins) ∈ es →
      ∀ plugin ∈ plugins, plugin.module.KeepsTried)
    (hrun : Machine.run (step logOnNoRoute) (init world) es = some p) {i : Nat} {l : Life γ ω}
    (hl : p.threads[i]? = some (.life l)) {r : Request γ ω} (hr : l.stage = .attempts r)
    : AttemptLoop.Reached r := by
  have hok : Machine.Guarded (step logOnNoRoute)
      (fun _ e => ∀ req remote plugins, e = .spawn (.request req remote plugins) →
        ∀ plugin ∈ plugins, plugin.module.KeepsTried) (init world) es := by
    apply Machine.guarded_of_forall
    intro e he req remote plugins heq
    subst heq
    exact hplugins req remote plugins he
  have hall : ∀ (j : Nat) t, p.threads[j]? = some t → ∀ l, t = .life l →
      (∀ plugin ∈ l.plugins, plugin.module.KeepsTried) ∧ l.stage.Looping := by
    apply Machine.inv_of_run (I := fun p => ∀ (j : Nat) t, p.threads[j]? = some t → ∀ l, t = .life l →
      (∀ plugin ∈ l.plugins, plugin.module.KeepsTried) ∧ l.stage.Looping) _ _ hok hrun
    . intro p e q hp hok hstep
      rcases Pool.step_cases _ _ hstep with ⟨a, rfl, rfl⟩ | ⟨j, x, t, s, t', rfl, ht, hact, rfl⟩
      . apply Pool.forall_concat _ hp
        intro l hl
        cases a with
        | request req remote plugins =>
          cases hl
          exact ⟨hok req remote plugins rfl, trivial⟩
        | other a => cases hl
      . apply Pool.forall_set
        . intro l hl
          subst hl
          unfold act at hact
          split at hact
          . next l' x' =>
            rcases Option.map_eq_some_iff.mp hact with ⟨y, hy, heq⟩
            cases heq
            rcases hp j _ ht l' rfl with ⟨hkeeps, hlooping⟩
            rcases Life.looping_act hkeeps hlooping hy with ⟨hsame, hlooping'⟩
            rw [hsame]
            exact ⟨hkeeps, hlooping'⟩
          . rcases Option.map_eq_some_iff.mp hact with ⟨y, -, heq⟩
            cases heq
          . cases hact
        . intro k u _ hu
          exact hp k u hu
    . intro j t ht
      cases ht
  have hlooping := (hall i _ hl l rfl).2
  rw [hr] at hlooping
  exact hlooping

theorem acquired_of_run {logOnNoRoute : Bool} {world : World ω}
    {es : List (Pool.Event (GatewayArrival γ ω) GatewayInput)} {p : Pool (AppState ω) (GatewayTask γ ω)}
    (hplugins : ∀ req remote plugins, .spawn (.request req remote plugins) ∈ es →
      ∀ plugin ∈ plugins, plugin.module.KeepsTried)
    (hrun : Machine.run (step logOnNoRoute) (init world) es = some p) {i : Nat} {l : Life γ ω}
    (hl : p.threads[i]? = some (.life l)) {r : Request γ ω} (hr : l.stage = .attempts r)
    (hmethod : r.kind = .websocket → isIdempotent r.method = true)
    : r.acquired.Nodup ∧ r.acquired.length ≤ r.budget := by
  rcases AttemptLoop.disciplined_of_reached (reached_of_run hplugins hrun hl hr) hmethod with ⟨outcomes, h⟩
  exact ⟨h.nodup, h.bounded⟩

end Gateway

namespace AttemptLoop

theorem attempts_disciplined (s s' : AppState ω) (kind : RequestKind) (method : String) (pin : Pinned)
    (x : Exchange γ ω) (r : Request γ ω) (hmodules : x.session.KeepsTried)
    (hstart : Life.startAttempts s kind method pin x = (s', .attempts r))
    (es : List (AppState ω × Input)) (l : AttemptLoop γ ω)
    (hok : Machine.Guarded step HandshakeConnects { request := r } es)
    (hrun : Machine.run step { request := r } es = some l)
    : l.Disciplined := by
  have hinv : l.Inv := Machine.inv_of_run (fun _ _ _ h hok hstep => inv_step h hok hstep)
    (inv_start hmodules hstart) hok hrun
  exact hinv.disciplined

section runs

def pinFirst : LoadedPlugin Unit Unit where
  name := "pin"
  module := {
    instantiate := fun _ hd outside => (.ok ((), hd), outside)
    onPhase := fun _ _ _ hd outside =>
      (.ok 0, (), { hd with ctx := { hd.ctx with peerIndex := some 0 } }, outside)
  }
  settings := []
  timeout := 50
  failPolicy := .failOpen
  memoryMb := 16

def pairPin : Pinned where
  up := Upstream.fromConfig { name := "u", peers := [⟨peerA, 1⟩, ⟨peerB, 1⟩], retries := 1 }
  cell := (0, "u")

def pairState : AppState Unit where
  health := HealthRegistry.new.register "u" [peerA, peerB]
  runtimes := []
  world := { outside := (), errors := ∅ }

theorem chat_noQuery : '?' ∉ "/chat".toList := by
  decide

def upgradeRequest : HttpRequest where
  method := "get"
  uri := { path := "/chat", noQuery := chat_noQuery }
  headers := [("connection", some "Upgrade"), ("upgrade", some "websocket")]

def exchangeOf (plugins : List (LoadedPlugin Unit Unit)) : Exchange Unit Unit :=
  { session := RequestSession.new plugins (reqCtx upgradeRequest peerB (some 0, some "u")) [] }

def inPair (xs : List Input) : List (AppState Unit × Input) := xs.map fun x => (pairState, x)

theorem attempts_disciplined_pinned
    : ∃ r l, Life.startAttempts pairState .http "POST" pairPin (exchangeOf [pinFirst])
          = (pairState, .attempts r)
      ∧ Machine.run step { request := r } (inPair [.tick 1, .tick 2, .tick 3, .outcome (.failed .connect),
          .tick 4, .tick 5, .tick 6, .tick 7, .tick 8, .tick 9, .tick 10, .outcome (.answered 200)]) = some l
      ∧ l.request.acquired = [peerA, peerB] ∧ l.outcomes = [.failed .connect, .answered 200]
      ∧ l.Disciplined := by
  have hmodules : (exchangeOf [pinFirst]).session.KeepsTried := by
    intro slot hslot
    rcases List.mem_singleton.mp hslot with rfl
    intro phase timeout guest hd outside
    rfl
  refine ⟨_, _, rfl, rfl, rfl, rfl, ?_⟩
  exact attempts_disciplined pairState pairState .http "POST" pairPin (exchangeOf [pinFirst]) _ hmodules rfl
    (inPair [.tick 1, .tick 2, .tick 3, .outcome (.failed .connect),
      .tick 4, .tick 5, .tick 6, .tick 7, .tick 8, .tick 9, .tick 10, .outcome (.answered 200)]) _
    (by decide) rfl

theorem handshake_resent_after_timeout
    : ∃ r l, Life.branch pairState upgradeRequest pairPin (exchangeOf []) = (pairState, .attempts r)
      ∧ Machine.run step { request := r } (inPair [.tick 1, .tick 2, .tick 3, .tick 4, .built true,
          .outcome .timedOut, .tick 5, .tick 6, .tick 7, .tick 8, .tick 9, .tick 10, .built true]) = some l
      ∧ isIdempotent l.request.method = false
      ∧ l.request.acquired = [peerA, peerB] ∧ l.outcomes = [.timedOut]
      ∧ ¬l.Disciplined := by
  refine ⟨_, _, rfl, rfl, by decide, rfl, rfl, ?_⟩
  intro h
  rcases h.resent 0 (by decide) with ⟨o, ho, hresend, -⟩
  have hconnect := hresend (by decide)
  rw [hconnect] at ho
  cases ho

end runs

end AttemptLoop

end OpenRusty
