import OpenRusty.Proxy.Health.InFlight
import OpenRusty.Server.Pipeline.Basic

/-!
This module contains what one step of a task does: the call on the health registry that it makes, if
it makes one, and what a request acquires, releases and holds.
-/

namespace OpenRusty

def Stage.holds (stage : Stage) : Option Nat :=
  match stage with
  | .build idx => some idx
  | .wait idx => some idx
  | .record idx _ => some idx
  | .release idx _ => some idx
  | _ => none

namespace Request

variable {γ ω : Type}

def addr (r : Request γ ω) (idx : Nat) : Option SocketAddr := r.up.peers[idx]?.map Peer.addr

def held (r : Request γ ω) : List SocketAddr := (r.stage.holds.bind r.addr).toList

def op (r : Request γ ω) (x : Input) : Option HealthOp :=
  match r.stage, x with
  | .acquire idx, .tick _ => (r.addr idx).map (.incInFlight r.up.name)
  | .record idx (.answered _), .tick nowMs => some (.recordSuccess r.up.name idx nowMs)
  | .record idx _, .tick nowMs => some (.recordFailure r.up.name idx r.up.health nowMs)
  | .release idx _, .tick _ => (r.addr idx).map (.decInFlight r.up.name)
  | .accept idx, .tick nowMs => some (.recordSuccess r.up.name idx nowMs)
  | _, _ => none

def leaks (r : Request γ ω) (x : Input) : Bool :=
  match r.stage, x with
  | .build _, .built false => true
  | .wait _, .drop => true
  | _, _ => false

structure Frame (s : AppState ω) (r : Request γ ω) (holds : Option Nat)
    (y : AppState ω × Request γ ω)
    : Prop where
  health : y.1.health = s.health
  up : y.2.up = r.up
  acquired : y.2.acquired = r.acquired
  released : y.2.released = r.released
  holds : y.2.stage.holds = holds

section frame

variable (s : AppState ω) (r : Request γ ω)

theorem frame_finishLog (status : Nat) : Frame s r none (r.finishLog s status) := by
  constructor <;> rfl

theorem frame_pick : Frame s r none (r.pick s) := by
  have hbegin : r.beginAttempt.up = r.up ∧ r.beginAttempt.acquired = r.acquired
      ∧ r.beginAttempt.released = r.released := by
    unfold beginAttempt
    split <;> exact ⟨rfl, rfl, rfl⟩
  obtain ⟨hup, hacquired, hreleased⟩ := hbegin
  unfold pick
  dsimp only
  split
  . exact ⟨rfl, hup, hacquired, hreleased, rfl⟩
  . split
    . exact ⟨rfl, hup, hacquired, hreleased, rfl⟩
    . exact ⟨rfl, hup, hacquired, hreleased, rfl⟩

theorem frame_testPin (i nowMs : Nat) : Frame s r none (s, r.testPin s i nowMs) := by
  unfold testPin
  split
  . constructor <;> rfl
  . constructor <;> rfl

theorem frame_listHealthy (nowMs : Nat) : Frame s r none (r.listHealthy s nowMs) := by
  unfold listHealthy
  dsimp only
  split
  . apply frame_finishLog
  . constructor <;> rfl

theorem frame_chosen (i : Option Nat) : Frame s r none (r.chosen s i) := by
  unfold chosen
  split
  . constructor <;> rfl
  . apply frame_finishLog

theorem frame_choose (candidates : List Nat) : Frame s r none (r.choose s candidates) := by
  unfold choose
  split
  . split
    . next i cur _ =>
      have hchosen := frame_chosen (s.setSwrr r.cell cur) r (some i)
      exact { hchosen with }
    . apply frame_chosen
  . apply frame_chosen
  . apply frame_chosen

theorem frame_forward (idx : Nat) : Frame s r (some idx) (s, r.forward idx) := by
  unfold forward
  split
  . constructor <;> rfl
  . constructor <;> rfl

theorem frame_answer (idx : Nat) (outcome : Outcome)
    : Frame s r (some idx) (s, r.answer idx outcome) := by
  unfold answer
  split
  . constructor <;> rfl
  . constructor <;> rfl

theorem frame_markTried (idx : Nat) : Frame s r r.stage.holds (s, r.markTried idx) := by
  unfold markTried
  split
  . constructor <;> rfl
  . constructor <;> rfl

theorem frame_nextAttempt : Frame s r none (r.nextAttempt s) := by
  unfold nextAttempt
  split
  . constructor <;> rfl
  . apply frame_finishLog

theorem frame_afterRelease (idx : Nat) (outcome : Outcome)
    : Frame s r none (r.afterRelease s idx outcome) := by
  have htried := frame_markTried s r idx
  unfold afterRelease
  split
  . constructor <;> rfl
  . split
    . have hnext := frame_nextAttempt s (r.markTried idx)
      exact ⟨hnext.health, hnext.up.trans htried.up, hnext.acquired.trans htried.acquired,
        hnext.released.trans htried.released, hnext.holds⟩
    . apply frame_finishLog
  . split
    . constructor <;> rfl
    . apply frame_finishLog
  . exact ⟨rfl, htried.up, htried.acquired, htried.released, rfl⟩

end frame

def acquires (r : Request γ ω) (x : Input) (v : String) : List SocketAddr :=
  (r.op x).elim [] fun op => op.acquires v

def releases (r : Request γ ω) (x : Input) (v : String) : List SocketAddr :=
  (r.op x).elim [] fun op => op.releases v

structure Acts (s : AppState ω) (r : Request γ ω) (x : Input) (y : AppState ω × Request γ ω)
    : Prop where
  health : y.1.health = (r.op x).elim s.health s.health.exec
  up : y.2.up = r.up
  acquired : y.2.acquired = r.acquired ++ r.acquires x r.up.name
  released : y.2.released = r.released ++ r.releases x r.up.name
  held : r.leaks x = false
    → r.held ++ r.acquires x r.up.name = r.releases x r.up.name ++ y.2.held

variable {s : AppState ω} {r : Request γ ω} {x : Input} {y : AppState ω × Request γ ω}

theorem Frame.held_eq {holds : Option Nat} (h : Frame s r holds y)
    : y.2.held = (holds.bind r.addr).toList := by
  unfold held addr
  rw [h.up, h.holds]

theorem Frame.acts {holds : Option Nat} (h : Frame s r holds y) (hop : r.op x = none)
    (hholds : r.leaks x = false → r.stage.holds = holds)
    : Acts s r x y where
  health := by
    rw [hop]
    exact h.health
  up := h.up
  acquired := by
    unfold acquires
    rw [hop, h.acquired]
    simp
  released := by
    unfold releases
    rw [hop, h.released]
    simp
  held := by
    intro hleak
    unfold acquires releases
    rw [hop, h.held_eq, ← hholds hleak]
    simp [held]

theorem Frame.acts_of_record {holds : Option Nat} {op : HealthOp} (h : Frame s r holds y)
    (hop : r.op x = some op) (hacquires : ∀ v, op.acquires v = []) (hreleases : ∀ v, op.releases v = [])
    (hholds : r.stage.holds = holds)
    : Acts s r x ({ y.1 with health := s.health.exec op }, y.2) where
  health := by
    rw [hop]
    rfl
  up := h.up
  acquired := by
    unfold acquires
    rw [hop, Option.elim_some, hacquires, h.acquired]
    simp
  released := by
    unfold releases
    rw [hop, Option.elim_some, hreleases, h.released]
    simp
  held := by
    intro _
    unfold acquires releases
    rw [hop, Option.elim_some, Option.elim_some, hacquires, hreleases, h.held_eq, ← hholds]
    simp [held]

theorem acts_acquire {idx nowMs : Nat} (hstage : r.stage = .acquire idx)
    (h : r.acquire s idx = some y)
    : Acts s r (.tick nowMs) y := by
  unfold acquire at h
  obtain ⟨peer, hpeer, rfl⟩ := Option.map_eq_some_iff.mp h
  have haddr : r.addr idx = some peer.addr := by
    simp [addr, hpeer]
  have hop : r.op (.tick nowMs) = some (.incInFlight r.up.name peer.addr) := by
    unfold op
    simp only [hstage, haddr, Option.map_some]
  have hacquires : r.acquires (.tick nowMs) r.up.name = [peer.addr] := by
    simp [acquires, hop, HealthOp.acquires]
  have hreleases : r.releases (.tick nowMs) r.up.name = [] := by
    simp [releases, hop, HealthOp.releases]
  have hforward := frame_forward s { r with acquired := r.acquired ++ [peer.addr] } idx
  refine ⟨?_, hforward.up, ?_, ?_, ?_⟩
  . rw [hop]
    rfl
  . rw [hacquires]
    exact hforward.acquired
  . rw [hreleases, List.append_nil]
    exact hforward.released
  . intro _
    have hheld : r.held = [] := by
      simp [held, hstage, Stage.holds]
    have hheld' := hforward.held_eq
    rw [Option.bind_some] at hheld'
    rw [hheld, hacquires, hreleases]
    change _ = [] ++ (forward _ idx).held
    rw [hheld']
    change _ = [] ++ (r.addr idx).toList
    rw [haddr]
    rfl

theorem acts_record {idx nowMs : Nat} {outcome : Outcome} (hstage : r.stage = .record idx outcome)
    : Acts s r (.tick nowMs) (r.record s idx outcome nowMs) := by
  have hframe : Frame s r (some idx) (s, { r with stage := .release idx outcome }) := by
    constructor <;> rfl
  have hholds : r.stage.holds = some idx := by
    rw [hstage]
    rfl
  cases outcome with
  | answered status =>
    have hop : r.op (.tick nowMs) = some (.recordSuccess r.up.name idx nowMs) := by
      unfold op
      rw [hstage]
    exact hframe.acts_of_record hop (fun _ => rfl) (fun _ => rfl) hholds
  | failed err =>
    have hop : r.op (.tick nowMs) = some (.recordFailure r.up.name idx r.up.health nowMs) := by
      unfold op
      rw [hstage]
    exact hframe.acts_of_record hop (fun _ => rfl) (fun _ => rfl) hholds
  | timedOut =>
    have hop : r.op (.tick nowMs) = some (.recordFailure r.up.name idx r.up.health nowMs) := by
      unfold op
      rw [hstage]
    exact hframe.acts_of_record hop (fun _ => rfl) (fun _ => rfl) hholds

theorem acts_accept {idx nowMs : Nat} (hstage : r.stage = .accept idx)
    : Acts s r (.tick nowMs) (r.accept s idx nowMs) := by
  have hframe : Frame s r none (s, { r with stage := .done 101 }) := by
    constructor <;> rfl
  have hop : r.op (.tick nowMs) = some (.recordSuccess r.up.name idx nowMs) := by
    unfold op
    rw [hstage]
  have hholds : r.stage.holds = none := by
    rw [hstage]
    rfl
  exact hframe.acts_of_record hop (fun _ => rfl) (fun _ => rfl) hholds

theorem acts_release {idx nowMs : Nat} {outcome : Outcome} (hstage : r.stage = .release idx outcome)
    : Acts s r (.tick nowMs) (r.release s idx outcome) := by
  unfold release releasePeer
  cases hpeer : r.up.peers[idx]? with
  | none =>
    have haddr : r.addr idx = none := by
      simp [addr, hpeer]
    have hop : r.op (.tick nowMs) = none := by
      unfold op
      simp only [hstage, haddr, Option.map_none]
    have hafter := frame_afterRelease s r idx outcome
    refine ⟨?_, hafter.up, ?_, ?_, ?_⟩
    . rw [hop]
      exact hafter.health
    . simp [acquires, hop, hafter.acquired]
    . simp [releases, hop, hafter.released]
    . intro _
      rw [hafter.held_eq]
      simp [held, hstage, Stage.holds, haddr, acquires, releases, hop]
  | some peer =>
    have haddr : r.addr idx = some peer.addr := by
      simp [addr, hpeer]
    have hop : r.op (.tick nowMs) = some (.decInFlight r.up.name peer.addr) := by
      unfold op
      simp only [hstage, haddr, Option.map_some]
    have hacquires : r.acquires (.tick nowMs) r.up.name = [] := by
      simp [acquires, hop, HealthOp.acquires]
    have hreleases : r.releases (.tick nowMs) r.up.name = [peer.addr] := by
      simp [releases, hop, HealthOp.releases]
    have hafter := frame_afterRelease { s with health := s.health.decInFlight r.up.name peer.addr }
      { r with released := r.released ++ [peer.addr] } idx outcome
    refine ⟨?_, hafter.up, ?_, ?_, ?_⟩
    . rw [hop]
      exact hafter.health
    . rw [hacquires, List.append_nil]
      exact hafter.acquired
    . rw [hreleases]
      exact hafter.released
    . intro _
      rw [hafter.held_eq, hacquires, hreleases]
      simp [held, hstage, Stage.holds, haddr]

theorem act_spec (h : r.act s x = some y) : Acts s r x y := by
  unfold act at h
  split at h
  . next hstage =>
    cases h
    apply (frame_pick s r).acts <;> simp [op, hstage, Stage.holds]
  . next i nowMs hstage =>
    cases h
    apply (frame_testPin s r i nowMs).acts <;> simp [op, hstage, Stage.holds]
  . next nowMs hstage =>
    cases h
    apply (frame_listHealthy s r nowMs).acts <;> simp [op, hstage, Stage.holds]
  . next candidates _ hstage =>
    cases h
    apply (frame_choose s r candidates).acts <;> simp [op, hstage, Stage.holds]
  . next idx nowMs hstage => exact acts_acquire hstage h
  . next idx hstage =>
    cases h
    have hframe : Frame s r (some idx) (s, { r with stage := .wait idx }) := by
      constructor <;> rfl
    apply hframe.acts <;> simp [op, hstage, Stage.holds]
  . next idx hstage =>
    cases h
    apply (frame_finishLog s r 502).acts <;> simp [op, hstage, leaks]
  . next idx o hstage =>
    cases h
    apply (frame_answer s r idx o).acts <;> simp [op, hstage, Stage.holds]
  . next idx hstage =>
    cases h
    have hframe : Frame s r none (s, { r with stage := .dropped }) := by
      constructor <;> rfl
    apply hframe.acts <;> simp [op, hstage, leaks]
  . next idx o nowMs hstage =>
    cases h
    exact acts_record hstage
  . next idx o nowMs hstage =>
    cases h
    exact acts_release hstage
  . next idx nowMs hstage =>
    cases h
    exact acts_accept hstage
  . cases h

end Request

namespace Task

variable {γ ω : Type}

def request? (t : Task γ ω) : Option (Request γ ω) :=
  match t with
  | .request r => some r
  | _ => none

def op (t : Task γ ω) (x : Input) : Option HealthOp :=
  match t, x with
  | .request r, x => r.op x
  | .reload _ _ (uc :: _), .tick _ => some (.register uc.name (Upstream.fromConfig uc).addrs)
  | .probe upstream idx addr ok unhealthyThreshold healthyThreshold, .tick _ =>
    some (.recordProbe upstream idx addr ok unhealthyThreshold healthyThreshold)
  | _, _ => none

def acquires (t : Task γ ω) (x : Input) (v : String) : List SocketAddr :=
  (t.op x).elim [] fun op => op.acquires v

def releases (t : Task γ ω) (x : Input) (v : String) : List SocketAddr :=
  (t.op x).elim [] fun op => op.releases v

def leaks (t : Task γ ω) (x : Input) : Bool := t.request?.any fun r => r.leaks x

def holding (upstream : String) (addr : SocketAddr) (t : Task γ ω) : Nat :=
  t.request?.elim 0 fun r => if r.up.name = upstream then r.held.count addr else 0

def Accounted (t : Task γ ω) : Prop := ∀ r ∈ t.request?, r.acquired = r.released ++ r.held

variable {s s' : AppState ω} {t t' : Task γ ω} {x : Input}

def loads (s : AppState ω) (t : Task γ ω) : Option UpstreamRt :=
  match t with
  | .arriving _ _ upstream _ => s.current upstream
  | _ => none

structure Fresh (s : AppState ω) (t : Task γ ω) (r : Request γ ω) : Prop where
  up : ∃ u ∈ t.loads s, r.up = u.up
  acquired : r.acquired = []
  released : r.released = []
  stage : r.stage = .pick ∨ r.stage = .done 502

theorem eq_request {r : Request γ ω} (h : r ∈ t.request?) : t = .request r := by
  cases t with
  | request r' =>
    cases h
    rfl
  | arriving | reload | probe | stopped => cases h

theorem op_of_loads {u : UpstreamRt} (h : u ∈ t.loads s) : t.op x = none := by
  cases t with
  | arriving kind method upstream session => cases x <;> rfl
  | request | reload | probe | stopped => cases h

theorem fresh_of_none (h : t'.request? = none) : ∀ r ∈ t'.request?, Fresh s t r := by
  intro r hr
  rw [h] at hr
  cases hr

theorem load_spec {kind : RequestKind} {method upstream : String} {session : RequestSession γ ω}
    (h : load s kind method upstream session = (s', t'))
    : s'.health = s.health
      ∧ ∀ r ∈ t'.request?, Fresh s (.arriving kind method upstream session) r := by
  unfold load at h
  split at h
  . next u hu =>
    dsimp only at h
    split at h
    . cases h
      refine ⟨rfl, ?_⟩
      rintro r ⟨⟩
      exact ⟨⟨u, hu, rfl⟩, rfl, rfl, .inr rfl⟩
    . cases h
      refine ⟨rfl, ?_⟩
      rintro r ⟨⟩
      exact ⟨⟨u, hu, rfl⟩, rfl, rfl, .inl rfl⟩
  . cases h
    exact ⟨rfl, fresh_of_none rfl⟩

theorem act_cases (h : act s t x = some (s', t'))
    : (∃ r r', t = .request r ∧ t' = .request r' ∧ r.act s x = some (s', r'))
      ∨ t.request? = none ∧ (∀ r ∈ t'.request?, Fresh s t r)
        ∧ s'.health = (t.op x).elim s.health s.health.exec
        ∧ ∀ v, t.acquires x v = [] ∧ t.releases x v = [] := by
  cases t with
  | request r =>
    left
    simp only [act, Option.map_eq_some_iff, Prod.mk.injEq] at h
    obtain ⟨⟨s'', r'⟩, hact, rfl, rfl⟩ := h
    exact ⟨r, r', rfl, rfl, hact⟩
  | arriving kind method upstream session =>
    right
    cases x <;> simp only [act, Option.some_inj, reduceCtorEq] at h
    . obtain ⟨hhealth, hfresh⟩ := load_spec h
      exact ⟨rfl, hfresh, hhealth, fun _ => ⟨rfl, rfl⟩⟩
    . cases h
      exact ⟨rfl, fresh_of_none rfl, rfl, fun _ => ⟨rfl, rfl⟩⟩
  | reload cfg generation rest =>
    right
    cases rest <;> cases x <;> simp only [act, Option.some_inj, reduceCtorEq] at h <;> cases h <;>
      exact ⟨rfl, fresh_of_none rfl, rfl, fun _ => ⟨rfl, rfl⟩⟩
  | probe upstream idx addr ok unhealthyThreshold healthyThreshold =>
    right
    cases x <;> simp only [act, Option.some_inj, reduceCtorEq] at h
    cases h
    exact ⟨rfl, fresh_of_none rfl, rfl, fun _ => ⟨rfl, rfl⟩⟩
  | stopped => cases x <;> simp [act] at h

theorem act_health (h : act s t x = some (s', t'))
    : s'.health = (t.op x).elim s.health s.health.exec := by
  obtain ⟨r, r', rfl, rfl, hact⟩ | ⟨-, -, hhealth, -⟩ := act_cases h
  . exact (Request.act_spec hact).health
  . exact hhealth

theorem held_of_fresh {r : Request γ ω} (h : Fresh s t r) : r.held = [] := by
  unfold Request.held
  obtain hstage | hstage := h.stage
  . rw [hstage]
    rfl
  . rw [hstage]
    rfl

theorem acquires_request_ne {r : Request γ ω} {v : String} (hne : r.up.name ≠ v)
    : r.acquires x v = [] ∧ r.releases x v = [] := by
  unfold Request.acquires Request.releases Request.op
  split
  . next idx _ _ =>
    cases r.addr idx with
    | none => exact ⟨rfl, rfl⟩
    | some a => exact ⟨if_neg hne, rfl⟩
  . exact ⟨rfl, rfl⟩
  . exact ⟨rfl, rfl⟩
  . next idx _ _ _ =>
    cases r.addr idx with
    | none => exact ⟨rfl, rfl⟩
    | some a => exact ⟨rfl, if_neg hne⟩
  . exact ⟨rfl, rfl⟩
  . exact ⟨rfl, rfl⟩

theorem act_accounted (h : act s t x = some (s', t')) (hleak : t.leaks x = false)
    (hacc : t.Accounted)
    : t'.Accounted := by
  obtain ⟨r, r', rfl, rfl, hact⟩ | ⟨-, hfresh, -, -⟩ := act_cases h
  . have hspec := Request.act_spec hact
    rintro _ ⟨⟩
    rw [hspec.acquired, hspec.released, hacc r rfl, List.append_assoc, List.append_assoc]
    rw [hspec.held hleak]
  . intro r hr
    rw [(hfresh r hr).acquired, (hfresh r hr).released, held_of_fresh (hfresh r hr)]
    rfl

theorem act_holding (h : act s t x = some (s', t')) (hleak : t.leaks x = false) (v : String)
    (a : SocketAddr)
    : t.holding v a + (t.acquires x v).count a = t'.holding v a + (t.releases x v).count a := by
  obtain ⟨r, r', rfl, rfl, hact⟩ | ⟨hnone, hfresh, -, hcalls⟩ := act_cases h
  . have hspec := Request.act_spec hact
    have hup : r'.up = r.up := hspec.up
    change (if r.up.name = v then r.held.count a else 0) + (r.acquires x v).count a
      = (if r'.up.name = v then r'.held.count a else 0) + (r.releases x v).count a
    rw [hup]
    split
    . next hv =>
      subst hv
      have := congrArg (List.count a) (hspec.held hleak)
      rw [List.count_append, List.count_append] at this
      dsimp only at this
      omega
    . next hv =>
      obtain ⟨hacquires, hreleases⟩ := acquires_request_ne (x := x) hv
      rw [hacquires, hreleases]
  . obtain ⟨hacquires, hreleases⟩ := hcalls v
    rw [hacquires, hreleases]
    unfold holding
    rw [hnone]
    cases hr : t'.request? with
    | none => rfl
    | some r => simp [held_of_fresh (hfresh r hr)]

end Task

namespace Server

variable {γ ω : Type}

end Server

end OpenRusty
