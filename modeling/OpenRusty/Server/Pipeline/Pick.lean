import OpenRusty.Proxy.Health.Active
import OpenRusty.Proxy.LeastConn
import OpenRusty.Server.Pipeline.Selection
import OpenRusty.Server.Pipeline.Swrr

/-!
This module contains the selection of a peer as one call (`pick_peer`), as it runs when nobody takes a step
in between: what it answers, said by which peers are healthy and untried, and that the steps of a request
come to the same. The clock is read once for the pin and once for the list of the healthy peers.
-/

namespace OpenRusty

inductive Pick where
  | peer (idx : Nat)
  | deny (status : Nat)
  | none
  deriving DecidableEq, Repr

section pick

variable {γ ω : Type} (s : AppState ω) (up : Upstream) (cell : Nat × String) (session : RequestSession γ ω)

def takePeer (idx : Nat) : Pick × AppState ω × RequestSession γ ω :=
  let health := up.peers[idx]?.elim s.health fun peer => s.health.incInFlight up.name peer.addr
  (.peer idx, { s with health }, session)

def chooseFrom (candidates : List Nat) : Option Nat × AppState ω :=
  match up.kind with
  | .swrr =>
    match swrrPick up (s.swrr cell) candidates with
    | some (i, cur) => (some i, s.setSwrr cell cur)
    | none => (none, s)
  | .ipHash => (ipHashPick session.state.ctx.clientAddr.ip.toString candidates, s)
  | .leastConn =>
    let flights := s.health.inFlights up.name up.addrs
    (leastConnPick flights (up.peers.map Peer.weight) candidates, s)

def pickDefault (tried : List SocketAddr) (nowMs : Nat) : Pick × AppState ω × RequestSession γ ω :=
  let healthy := s.health.healthyIndices up.name up.peers.length nowMs
  let candidates := untriedHealthy up.peers healthy tried
  if candidates.isEmpty then
    (.none, s, session)
  else
    match chooseFrom s up cell session candidates with
    | (some i, s) => takePeer s up session i
    | (none, s) => (.none, s, session)

def pickPinned (pinMs listMs : Nat) : Pick × AppState ω × RequestSession γ ω :=
  let tried := session.state.ctx.tried
  match session.state.ctx.peerIndex with
  | some idx =>
    if pinIsValid up idx (s.health.isHealthy up.name idx pinMs) tried then
      takePeer s up session idx
    else
      pickDefault s up cell (session.modifyCtx fun ctx => { ctx with peerIndex := none }) tried listMs
  | none => pickDefault s up cell session tried listMs

def pickPeer (pinMs listMs : Nat) : Pick × AppState ω × RequestSession γ ω :=
  match session.runPhase .balancer s.world with
  | (decision, session, world) =>
    match decision with
    | .deny status => (.deny status, { s with world }, session)
    | _ => pickPinned { s with world } up cell session pinMs listMs

def Eligible (tried : List SocketAddr) (nowMs idx : Nat) : Prop :=
  s.health.isHealthy up.name idx nowMs = true ∧ ∃ p, up.peers[idx]? = some p ∧ p.addr ∉ tried

def Balances (ctx : ReqCtx) (candidates : List Nat) (idx : Nat) : Prop :=
  match up.kind with
  | .swrr =>
    let eff := fun i => (s.swrr cell).getD i 0 + (up.weightAt i : Int)
    idx ∈ candidates ∧ (∀ i ∈ candidates, eff i ≤ eff idx) ∧ ∀ i ∈ candidates, i < idx → eff i < eff idx
  | .ipHash =>
    let hash := fnv1a64 ctx.clientAddr.ip.toString.toUTF8.toList
    candidates[hash.toNat % candidates.length]? = some idx
  | .leastConn =>
    let flights := s.health.inFlights up.name up.addrs
    candidates.argmin (load flights (up.peers.map Peer.weight)) = some idx

end pick

section eligible

variable {γ ω : Type} {s : AppState ω} {up : Upstream} {cell : Nat × String} {session : RequestSession γ ω}
  {tried : List SocketAddr} {nowMs idx : Nat}

theorem pinIsValid_iff
    : pinIsValid up idx (s.health.isHealthy up.name idx nowMs) tried = true
        ↔
      Eligible s up tried nowMs idx := by
  unfold pinIsValid Eligible
  cases up.peers[idx]? <;> simp

theorem mem_candidates_iff (s : AppState ω) (up : Upstream) (tried : List SocketAddr) (nowMs idx : Nat)
    : idx ∈ untriedHealthy up.peers (s.health.healthyIndices up.name up.peers.length nowMs) tried
        ↔
      Eligible s up tried nowMs idx := by
  unfold untriedHealthy Eligible
  rw [HealthRegistry.healthyIndices_eq, List.mem_filter, List.mem_filter, List.mem_range]
  cases hp : up.peers[idx]? with
  | none => simp
  | some p =>
    have hlt := (List.getElem?_eq_some_iff.mp hp).1
    simp [hlt]

theorem pairwise_candidates (s : AppState ω) (up : Upstream) (tried : List SocketAddr) (nowMs : Nat)
    : (untriedHealthy up.peers (s.health.healthyIndices up.name up.peers.length nowMs) tried).Pairwise
        (· < ·) := by
  unfold untriedHealthy
  rw [HealthRegistry.healthyIndices_eq]
  exact (List.pairwise_lt_range.filter _).filter _

theorem Eligible.later (h : Eligible s up tried nowMs idx) {later : Nat} (hle : nowMs ≤ later)
    : Eligible s up tried later idx := by
  refine ⟨?_, h.2⟩
  have hhealthy := h.1
  rw [HealthRegistry.isHealthy_eq] at hhealthy ⊢
  cases hslot : s.health.slot up.name idx with
  | none => rfl
  | some x =>
    rw [hslot] at hhealthy
    simp only [Option.all_some, PeerHealth.isUp, Bool.and_eq_true, decide_eq_true_eq] at hhealthy ⊢
    exact ⟨Nat.le_trans hhealthy.1 hle, hhealthy.2⟩

theorem candidates_untriedHealthy (s : AppState ω) (up : Upstream) (tried : List SocketAddr) (nowMs : Nat)
    (hne : untriedHealthy up.peers (s.health.healthyIndices up.name up.peers.length nowMs) tried ≠ [])
    : Candidates up
        (untriedHealthy up.peers (s.health.healthyIndices up.name up.peers.length nowMs) tried) where
  ne_nil := hne
  nodup := (pairwise_candidates s up tried nowMs).imp Nat.ne_of_lt
  lt_length := by
    intro i hi
    rcases ((mem_candidates_iff s up tried nowMs i).mp hi).2 with ⟨p, hp, -⟩
    exact (List.getElem?_eq_some_iff.mp hp).1

theorem chooseFrom_correct (s : AppState ω) (cell : Nat × String) (session : RequestSession γ ω)
    (hweights : ∀ p ∈ up.peers, 0 < p.weight) {candidates : List Nat}
    (hcandidates : Candidates up candidates) (hsorted : candidates.Pairwise (· < ·))
    : ∃ best ∈ candidates, (chooseFrom s up cell session candidates).1 = some best
      ∧ ∀ i, Balances s up cell session.state.ctx candidates i ↔ best = i := by
  unfold chooseFrom Balances
  split
  . rcases swrrPick_best up (s.swrr cell) hcandidates hsorted with ⟨best, cur, hpick, hbest, hle, hlt⟩
    rw [hpick]
    refine ⟨best, hbest, rfl, ?_⟩
    intro i
    dsimp only
    constructor
    . rintro ⟨hi, hle', hlt'⟩
      rcases Nat.lt_trichotomy best i with hless | heq | hmore
      . have := hlt' best hbest hless
        have := hle i hi
        omega
      . exact heq
      . have := hlt i hi hmore
        have := hle' best hbest
        omega
    . rintro rfl
      exact ⟨hbest, hle, hlt⟩
  . rcases Option.isSome_iff_exists.mp
      (ipHashPick_isSome session.state.ctx.clientAddr.ip.toString hcandidates.ne_nil) with ⟨best, hpick⟩
    refine ⟨best, ipHashPick_mem hpick, hpick, ?_⟩
    intro i
    unfold ipHashPick at hpick
    dsimp only at hpick ⊢
    rw [hpick, Option.some_inj]
  . have hflights : (s.health.inFlights up.name up.addrs).length = up.peers.length := by
      unfold HealthRegistry.inFlights Upstream.addrs
      split <;> simp
    have hweighted : Weighted (s.health.inFlights up.name up.addrs) (up.peers.map Peer.weight) candidates := {
      weight_pos := by
        intro w hw
        rcases List.mem_map.mp hw with ⟨p, hp, rfl⟩
        exact hweights p hp
      lt_length := by
        intro i hi
        rw [hflights, List.length_map]
        exact ⟨hcandidates.lt_length i hi, hcandidates.lt_length i hi⟩ }
    rcases Option.isSome_iff_exists.mp (leastConnPick_isSome (s.health.inFlights up.name up.addrs)
      (up.peers.map Peer.weight) hcandidates.ne_nil) with ⟨best, hpick⟩
    refine ⟨best, leastConnPick_mem hpick, hpick, ?_⟩
    intro i
    rw [hweighted.pick_eq_argmin] at hpick
    dsimp only
    rw [hpick, Option.some_inj]

theorem pickDefault_correct (s : AppState ω) (cell : Nat × String) (session : RequestSession γ ω)
    (tried : List SocketAddr) (nowMs : Nat) (hweights : ∀ p ∈ up.peers, 0 < p.weight)
    : ((pickDefault s up cell session tried nowMs).1 = .none ↔ ∀ i, ¬Eligible s up tried nowMs i)
      ∧ ∃ candidates : List Nat, candidates.Pairwise (· < ·)
        ∧ (∀ i, i ∈ candidates ↔ Eligible s up tried nowMs i)
        ∧ ∀ i, (pickDefault s up cell session tried nowMs).1 = .peer i
            ↔ i ∈ candidates ∧ Balances s up cell session.state.ctx candidates i := by
  have hmem := mem_candidates_iff s up tried nowMs
  have hsorted := pairwise_candidates s up tried nowMs
  have hcandidates := candidates_untriedHealthy s up tried nowMs
  unfold pickDefault
  dsimp only
  generalize untriedHealthy up.peers (s.health.healthyIndices up.name up.peers.length nowMs) tried
    = candidates at hmem hsorted hcandidates
  split
  . next hempty =>
    have hnil : candidates = [] := by simpa using hempty
    subst hnil
    refine ⟨iff_of_true rfl ?_, [], hsorted, hmem, ?_⟩
    . intro i hi
      cases (hmem i).mpr hi
    . intro i
      exact iff_of_false (by nofun) (by nofun)
  . next hempty =>
    have hne : candidates ≠ [] := by simpa using hempty
    rcases chooseFrom_correct s cell session hweights (hcandidates hne) hsorted
      with ⟨best, hbest, hchoose, hiff⟩
    generalize chooseFrom s up cell session candidates = chosen at hchoose
    rcases chosen with ⟨chosen, s'⟩
    cases hchoose
    refine ⟨iff_of_false (by nofun) (fun hall => hall best ((hmem best).mp hbest)), candidates, hsorted,
      hmem, ?_⟩
    intro i
    dsimp only [takePeer]
    rw [Pick.peer.injEq, hiff]
    constructor
    . rintro rfl
      exact ⟨hbest, rfl⟩
    . exact And.right

structure Picked (s : AppState ω) (up : Upstream) (cell : Nat × String) (ctx : ReqCtx) (pinMs listMs : Nat)
    (pick : Pick)
    : Prop where
  none_iff : pick = .none ↔ ∀ i, ¬Eligible s up ctx.tried listMs i
  eligible : ∀ i, pick = .peer i → Eligible s up ctx.tried listMs i
  pinned : ∀ pin, ctx.peerIndex = some pin → Eligible s up ctx.tried pinMs pin → pick = .peer pin
  balanced : (∀ pin, ctx.peerIndex = some pin → ¬Eligible s up ctx.tried pinMs pin) →
    ∃ candidates : List Nat, candidates.Pairwise (· < ·)
      ∧ (∀ i, i ∈ candidates ↔ Eligible s up ctx.tried listMs i)
      ∧ ∀ i, pick = .peer i ↔ i ∈ candidates ∧ Balances s up cell ctx candidates i

theorem picked_default (hweights : ∀ p ∈ up.peers, 0 < p.weight) {pinMs listMs : Nat} {ctx : ReqCtx}
    (haddr : session.state.ctx.clientAddr = ctx.clientAddr)
    (hpin : ∀ pin, ctx.peerIndex = some pin → ¬Eligible s up ctx.tried pinMs pin)
    : Picked s up cell ctx pinMs listMs (pickDefault s up cell session ctx.tried listMs).1 := by
  rcases pickDefault_correct s cell session ctx.tried listMs hweights with ⟨hnone, candidates, hsorted, hmem, hiff⟩
  have hbalances : ∀ i, Balances s up cell session.state.ctx candidates i
      ↔ Balances s up cell ctx candidates i := by
    intro i
    unfold Balances
    rw [haddr]
  simp only [hbalances] at hiff
  refine ⟨hnone, ?_, ?_, fun _ => ⟨candidates, hsorted, hmem, hiff⟩⟩
  . intro i hi
    exact (hmem i).mp ((hiff i).mp hi).1
  . intro pin hsome heligible
    exact absurd heligible (hpin pin hsome)

theorem picked_pinned (s : AppState ω) (cell : Nat × String) (session : RequestSession γ ω)
    (hweights : ∀ p ∈ up.peers, 0 < p.weight) {pinMs listMs : Nat}
    (hclock : pinMs ≤ listMs)
    : Picked s up cell session.state.ctx pinMs listMs (pickPinned s up cell session pinMs listMs).1 := by
  unfold pickPinned
  dsimp only
  split
  . next idx hidx =>
    split
    . next hvalid =>
      have heligible := pinIsValid_iff.mp hvalid
      have hlater := heligible.later hclock
      refine ⟨iff_of_false (by nofun) (fun hall => hall idx hlater), ?_, ?_, ?_⟩
      . rintro i hi
        cases hi
        exact hlater
      . intro pin hpin _
        rw [hidx] at hpin
        cases hpin
        rfl
      . intro hall
        exact absurd heligible (hall idx hidx)
    . next hinvalid =>
      refine picked_default hweights ?_ ?_
      . rfl
      . intro pin hpin
        rw [hidx] at hpin
        cases hpin
        exact fun heligible => hinvalid (pinIsValid_iff.mpr heligible)
  . next hnone =>
    apply picked_default hweights rfl
    intro pin hpin
    rw [hnone] at hpin
    cases hpin

end eligible

section correct

variable {γ ω : Type}

theorem pickPeer_correct (s : AppState ω) (up : Upstream) (cell : Nat × String) (session : RequestSession γ ω)
    (pinMs listMs : Nat) (hclock : pinMs ≤ listMs) (hweights : ∀ p ∈ up.peers, 0 < p.weight)
    : let balanced := session.runPhase .balancer s.world
      let pick := (pickPeer s up cell session pinMs listMs).1
      (∀ status, balanced.1 = .deny status → pick = .deny status)
      ∧ ((∀ status, balanced.1 ≠ .deny status) →
        Picked s up cell balanced.2.1.state.ctx pinMs listMs pick) := by
  intro balanced pick
  have hpick : pick = (pickPeer s up cell session pinMs listMs).1 := rfl
  have hphase : session.runPhase .balancer s.world = balanced := rfl
  clear_value pick balanced
  unfold pickPeer at hpick
  rw [hphase] at hpick
  rcases balanced with ⟨decision, session', world⟩
  subst hpick
  have hpicked := picked_pinned { s with world } cell session' hweights hclock
  dsimp only
  constructor
  . rintro status rfl
    rfl
  . intro hdeny
    cases decision with
    | deny status => exact absurd rfl (hdeny status)
    | ok | declined | done => exact ⟨hpicked.none_iff, hpicked.eligible, hpicked.pinned, hpicked.balanced⟩

def downFirst : AppState Unit where
  health := ((HealthRegistry.new.register "u" [peerA, peerB]).recordFailure "u" 0
    { maxFails := 1, failWindowS := 10, failTimeoutS := 10 } 1000)
  runtimes := []
  world := { outside := (), errors := ∅ }

def pairOfPeers : Upstream :=
  Upstream.fromConfig { name := "u", balancer := .leastConn, peers := [⟨peerA, 1⟩, ⟨peerB, 1⟩] }

theorem pickPeer_correct_fallback
    : let session : RequestSession Unit Unit := .new [] { ReqCtx.empty with peerIndex := some 0 } []
      (pickPeer downFirst pairOfPeers (0, "u") session 2000 2001).1 = .peer 1
      ∧ Eligible downFirst pairOfPeers [] 2001 1 := by
  intro session
  have hpick : (pickPeer downFirst pairOfPeers (0, "u") session 2000 2001).1 = .peer 1 := by decide
  have hcorrect := pickPeer_correct downFirst pairOfPeers (0, "u") session 2000 2001 (by decide) (by decide)
  exact ⟨hpick, (hcorrect.2 (fun _ => by nofun)).eligible 1 hpick⟩

end correct

/-!
The steps of a request, with nobody else taking one.
-/

section steps

namespace Request

variable {γ ω : Type} {s : AppState ω} {r : Request γ ω}

def alone (y : AppState ω × Request γ ω) (x : Input) : Option (AppState ω × Request γ ω) := y.2.act y.1 x

def Ends (r : Request γ ω) (pick : Pick × AppState ω × RequestSession γ ω) (y : AppState ω × Request γ ω)
    : Prop :=
  match pick with
  | (.peer idx, s, session) =>
    ∃ p, r.up.peers[idx]? = some p
      ∧ y = (s, forward { r with session, acquired := r.acquired ++ [p.addr] } idx)
  | (.deny status, s, session) => y = { r with session }.finishLog s status
  | (.none, s, session) => y = { r with session }.finishLog s 502

theorem run_takePeer {idx : Nat} (hstage : r.stage = .acquire idx) {p : Peer}
    (hp : r.up.peers[idx]? = some p)
    : ∃ y, Machine.run alone (s, r) [.tick 0] = some y ∧ r.Ends (takePeer s r.up r.session idx) y := by
  refine ⟨({ s with health := s.health.incInFlight r.up.name p.addr },
    forward { r with acquired := r.acquired ++ [p.addr] } idx), ?_, p, hp, ?_⟩
  . apply Machine.run_of_step
    unfold alone act acquire
    rw [hstage]
    dsimp only
    rw [hp]
    rfl
  . rw [hp]
    rfl

theorem choose_eq (candidates : List Nat)
    : r.choose s candidates
        =
      r.chosen (chooseFrom s r.up r.cell r.session candidates).2
        (chooseFrom s r.up r.cell r.session candidates).1 := by
  unfold choose chooseFrom
  cases r.up.kind with
  | swrr => cases swrrPick r.up (s.swrr r.cell) candidates <;> rfl
  | ipHash => rfl
  | leastConn => rfl

theorem chooseFrom_mem {candidates : List Nat} {i : Nat} {s' : AppState ω}
    (h : chooseFrom s r.up r.cell r.session candidates = (some i, s'))
    : i ∈ candidates := by
  unfold chooseFrom at h
  split at h
  . split at h
    . next hpick =>
      cases h
      exact swrrPick_mem hpick
    . cases h
  . exact ipHashPick_mem (Prod.mk.inj h).1
  . exact leastConnPick_mem (Prod.mk.inj h).1

theorem run_pickDefault (hstage : r.stage = .listHealthy) (listMs : Nat)
    : ∃ es y, Machine.run alone (s, r) es = some y
      ∧ r.Ends (pickDefault s r.up r.cell r.session r.ctx.tried listMs) y := by
  have hlist : alone (s, r) (.tick listMs) = some (r.listHealthy s listMs) := by
    unfold alone act
    rw [hstage]
  have hmem := mem_candidates_iff s r.up r.ctx.tried listMs
  unfold listHealthy at hlist
  unfold pickDefault
  dsimp only at hlist ⊢
  generalize untriedHealthy r.up.peers (s.health.healthyIndices r.up.name r.up.peers.length listMs)
    r.ctx.tried = candidates at hlist hmem ⊢
  split
  . next hempty =>
    rw [if_pos hempty] at hlist
    exact ⟨[.tick listMs], _, Machine.run_of_step _ hlist [], rfl⟩
  . next hempty =>
    rw [if_neg hempty] at hlist
    have hchoose : alone (s, { r with stage := .choose candidates }) (.tick 0)
        = some ({ r with stage := .choose candidates }.choose s candidates) := rfl
    rw [choose_eq] at hchoose
    dsimp only at hchoose
    rcases hchosen : chooseFrom s r.up r.cell r.session candidates with ⟨chosen, s'⟩
    rw [hchosen] at hchoose
    cases chosen with
    | none =>
      refine ⟨[.tick listMs, .tick 0], _, ?_, rfl⟩
      rw [Machine.run_of_step _ hlist]
      exact Machine.run_of_step _ hchoose []
    | some i =>
      have hi : i ∈ candidates := chooseFrom_mem (r := r) hchosen
      rcases ((hmem i).mp hi).2 with ⟨p, hp, -⟩
      rcases run_takePeer (s := s') (r := { r with stage := .acquire i }) rfl hp with ⟨y, hrun, hends⟩
      refine ⟨[.tick listMs, .tick 0, .tick 0], y, ?_, hends⟩
      rw [Machine.run_of_step _ hlist, Machine.run_of_step _ hchoose]
      exact hrun

theorem run_pickPinned (r' : Request γ ω) {world : World ω} (pinMs listMs : Nat)
    (hpick : r.pick s = match r'.ctx.peerIndex with
      | some i => ({ s with world }, { r' with stage := .testPin i })
      | none => ({ s with world }, { r' with stage := .listHealthy }))
    (hstage : r.stage = .pick)
    : ∃ es y, Machine.run alone (s, r) es = some y
      ∧ r'.Ends (pickPinned { s with world } r'.up r'.cell r'.session pinMs listMs) y := by
  have hfirst : alone (s, r) (.tick 0) = some (r.pick s) := by
    unfold alone act
    rw [hstage]
  rw [hpick] at hfirst
  unfold pickPinned
  dsimp only
  have hctx : r'.ctx = r'.session.state.ctx := rfl
  rw [hctx] at hfirst
  split
  . next idx hidx =>
    rw [hidx] at hfirst
    have htest : alone ({ s with world }, { r' with stage := .testPin idx }) (.tick pinMs)
        = some ({ s with world },
            if pinIsValid r'.up idx (s.health.isHealthy r'.up.name idx pinMs) r'.session.state.ctx.tried then
              { r' with stage := .acquire idx }
            else
              { r'.modifyCtx fun ctx => { ctx with peerIndex := none } with stage := .listHealthy }) := rfl
    split
    . next hvalid =>
      rcases (pinIsValid_iff.mp hvalid).2 with ⟨p, hp, -⟩
      rw [if_pos hvalid] at htest
      rcases run_takePeer (s := { s with world }) (r := { r' with stage := .acquire idx }) rfl hp
        with ⟨y, hrun, hends⟩
      refine ⟨[.tick 0, .tick pinMs, .tick 0], y, ?_, hends⟩
      rw [Machine.run_of_step _ hfirst, Machine.run_of_step _ htest]
      exact hrun
    -- The pin is dropped, and the balancer chooses among the healthy ones.
    . next hinvalid =>
      rw [if_neg hinvalid] at htest
      rcases run_pickDefault (s := { s with world })
        (r := { r'.modifyCtx fun ctx => { ctx with peerIndex := none } with stage := .listHealthy }) rfl listMs
        with ⟨es, y, hrun, hends⟩
      refine ⟨.tick 0 :: .tick pinMs :: es, y, ?_, hends⟩
      rw [Machine.run_of_step _ hfirst, Machine.run_of_step _ htest]
      exact hrun
  . next hnone =>
    rw [hnone] at hfirst
    rcases run_pickDefault (s := { s with world }) (r := { r' with stage := .listHealthy }) rfl listMs
      with ⟨es, y, hrun, hends⟩
    refine ⟨.tick 0 :: es, y, ?_, hends⟩
    rw [Machine.run_of_step _ hfirst]
    exact hrun

theorem run_pickPeer (s : AppState ω) (r : Request γ ω) (hstage : r.stage = .pick) (pinMs listMs : Nat)
    : ∃ es y, Machine.run alone (s, r) es = some y
      ∧ { r.beginAttempt with ran := r.ran ++ [Phase.balancer] }.Ends
          (pickPeer s r.up r.cell r.beginAttempt.session pinMs listMs) y := by
  have hup : r.beginAttempt.up = r.up ∧ r.beginAttempt.cell = r.cell := by
    unfold beginAttempt
    split <;> exact ⟨rfl, rfl⟩
  rw [← hup.1, ← hup.2]
  have hran : r.beginAttempt.ran = r.ran := by
    unfold beginAttempt
    split <;> rfl
  have hpick := Eq.refl (r.pick s)
  conv at hpick => rhs; unfold pick
  dsimp only at hpick
  unfold pickPeer
  rcases hphase : r.beginAttempt.session.runPhase .balancer s.world with ⟨decision, session, world⟩
  rw [hphase, hran] at hpick
  cases decision with
  | deny status =>
    refine ⟨[.tick 0], _, ?_, rfl⟩
    apply Machine.run_of_step
    unfold alone act
    rw [hstage, hpick]
  | ok | declined | done =>
    rcases run_pickPinned { r.beginAttempt with session, ran := r.ran ++ [Phase.balancer] } pinMs listMs
      hpick hstage with ⟨es, y, hrun, hends⟩
    exact ⟨es, y, hrun, hends⟩

end Request

end steps

end OpenRusty
