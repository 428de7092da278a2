import OpenRusty.Core.Validate
import OpenRusty.Lib.FinMap
import OpenRusty.Proxy.Health.InFlight
import OpenRusty.Proxy.Health.Passive
import OpenRusty.Server.Pipeline.InFlight
import OpenRusty.Server.Pipeline.Pick
import OpenRusty.Server.RetryLemmas

/-!
This module contains the sums that the proxy attempts form in machine words: the number of attempts, the
count of the failures of a peer, the end of its down time and the effective weights of the round robin.
Which limits of the configurations keep all of them in their words, whatever the server does.
-/

namespace OpenRusty

def PeerHealth.FailureFits (p : PeerHealth) (cfg : HealthConfig) (nowMs : Nat) : Prop :=
  cfg.maxFails ≠ 0 →
    (p.counted cfg nowMs).fails < 2 ^ 32
      ∧ (p.trips cfg nowMs = true → nowMs + Word.saturatingMul 64 cfg.failTimeoutS 1000 < 2 ^ 64)

instance (p : PeerHealth) (cfg : HealthConfig) (nowMs : Nat) : Decidable (p.FailureFits cfg nowMs) := by
  unfold PeerHealth.FailureFits
  infer_instance

namespace Request

variable {γ ω : Type}

def Fits (s : AppState ω) (r : Request γ ω) (x : Input) : Prop :=
  match r.stage, x with
  | .pick, .tick _ => r.kind = .http → r.attempt + 1 < 2 ^ 32
  -- `none` in machine words would be an overflow
  | .choose candidates, .tick _ =>
    r.up.kind = .swrr →
      swrrPick64 r.up (s.swrr r.cell) candidates = swrrPick r.up (s.swrr r.cell) candidates
  | .record _ (.answered _), .tick _ => True
  | .record idx _, .tick nowMs =>
    ∀ slot ∈ s.health.slot r.up.name idx, slot.2.FailureFits r.up.health nowMs
  | .release _ _, .tick _ => r.kind = .http → r.attempt + 1 < 2 ^ 32
  | _, _ => True

instance (s : AppState ω) (r : Request γ ω) (x : Input) : Decidable (r.Fits s x) := by
  unfold Fits
  split <;> infer_instance

end Request

def Task.Fits {γ ω : Type} (s : AppState ω) (t : Task γ ω) (x : Input) : Prop :=
  match t, x with
  | .arriving .http _ upstream _, .tick _ => ∀ u ∈ s.current upstream, u.up.retries + 1 < 2 ^ 32
  | .request r, x => r.Fits s x
  | _, _ => True

instance {γ ω : Type} (s : AppState ω) (t : Task γ ω) (x : Input) : Decidable (t.Fits s x) := by
  unfold Task.Fits
  split <;> infer_instance

/-- The first and the third limit are all that 32 and 64 bits leave room for at clocks below `2 ^ 63`. -/
structure Upstream.Limited (up : Upstream) : Prop where
  retries : up.retries + 1 < 2 ^ 32
  maxFails : up.health.maxFails < 2 ^ 32
  downTime : up.health.maxFails = 0 ∨ up.health.failTimeoutS * 1000 ≤ 2 ^ 63
  weights : up.peers.length * up.totalWeight < 2 ^ 63

namespace HealthRegistry

def FailsBelow (h : HealthRegistry) : Prop :=
  ∀ upstream i x, h.slot upstream i = some x → x.2.counters.fails + 1 < 2 ^ 32

end HealthRegistry

namespace PeerHealth

variable {p : PeerHealth} {cfg : HealthConfig} {nowMs : Nat}

theorem fails_counted_le : (p.counted cfg nowMs).fails ≤ p.counters.fails + 1 := by
  cases hstale : p.stale cfg nowMs with
  | true =>
    rw [p.counted_of_stale cfg nowMs hstale]
    dsimp only
    omega
  | false => rw [p.counted_of_not_stale cfg nowMs hstale]

theorem failureFits {up : Upstream} (hup : up.Limited) (hfails : p.counters.fails + 1 < 2 ^ 32)
    (hnow : nowMs < 2 ^ 63)
    : p.FailureFits up.health nowMs := by
  intro hmax
  refine ⟨Nat.lt_of_le_of_lt fails_counted_le hfails, ?_⟩
  intro _
  have hdown := hup.downTime.resolve_left hmax
  have hle : Word.saturatingMul 64 up.health.failTimeoutS 1000 ≤ up.health.failTimeoutS * 1000 :=
    Nat.min_le_left _ _
  omega

end PeerHealth

namespace HealthRegistry

variable {h : HealthRegistry}

theorem FailsBelow.modify (hbelow : h.FailsBelow) {h' : HealthRegistry} {f : PeerHealth → PeerHealth}
    (hf : ∀ p, p.counters.fails + 1 < 2 ^ 32 → (f p).counters.fails + 1 < 2 ^ 32)
    (hslot : ∀ v i, h'.slot v i = h.slot v i ∨ h'.slot v i = (h.slot v i).map fun x => (x.1, f x.2))
    : h'.FailsBelow := by
  intro v i x hx
  rcases hslot v i with heq | heq
  . rw [heq] at hx
    exact hbelow v i x hx
  . rw [heq] at hx
    rcases Option.map_eq_some_iff.mp hx with ⟨y, hy, rfl⟩
    exact hf y.2 (hbelow v i y hy)

theorem FailsBelow.modifyAt (hbelow : h.FailsBelow) (upstream : String) (idx : Nat)
    {f : PeerHealth → PeerHealth}
    (hf : ∀ p, p.counters.fails + 1 < 2 ^ 32 → (f p).counters.fails + 1 < 2 ^ 32)
    : (h.modifyAt upstream idx f).FailsBelow := by
  apply hbelow.modify hf
  intro v i
  rw [slot_modifyAt]
  split
  . exact .inr rfl
  . exact .inl rfl

theorem FailsBelow.modifyAddr (hbelow : h.FailsBelow) (upstream : String) (addr : SocketAddr)
    {f : PeerHealth → PeerHealth}
    (hf : ∀ p, p.counters.fails + 1 < 2 ^ 32 → (f p).counters.fails + 1 < 2 ^ 32)
    : (h.modifyAddr upstream addr f).FailsBelow := by
  apply hbelow.modify hf
  intro v i
  rw [slot_modifyAddr]
  split
  . exact .inr rfl
  . exact .inl rfl

theorem FailsBelow.register (hbelow : h.FailsBelow) (upstream : String) (addrs : List SocketAddr)
    : (h.register upstream addrs).FailsBelow := by
  intro v i x hx
  rw [slot_register] at hx
  split at hx
  . rcases Option.map_eq_some_iff.mp hx with ⟨a, -, rfl⟩
    rcases h.inherit_eq upstream a with ⟨j, p, hslot, heq⟩ | heq
    . dsimp only
      rw [heq]
      exact hbelow upstream j (a, p) hslot
    . dsimp only
      rw [heq]
      show 0 + 1 < 2 ^ 32
      decide
  . exact hbelow v i x hx

theorem FailsBelow.exec (hbelow : h.FailsBelow) {op : HealthOp}
    (hop : ∀ upstream idx cfg nowMs, op = .recordFailure upstream idx cfg nowMs → cfg.maxFails < 2 ^ 32)
    : (h.exec op).FailsBelow := by
  cases op with
  | register upstream addrs => exact hbelow.register upstream addrs
  | recordFailure upstream idx cfg nowMs =>
    have hmax := hop upstream idx cfg nowMs rfl
    unfold HealthRegistry.exec HealthRegistry.recordFailure
    dsimp only
    split
    . exact hbelow
    . apply hbelow.modifyAt
      intro p _
      have := p.fails_recordFailure cfg nowMs (by omega)
      omega
  | recordSuccess upstream idx nowMs =>
    apply hbelow.modifyAt
    intro p _
    show 0 + 1 < 2 ^ 32
    decide
  | recordProbe upstream idx addr ok unhealthyThreshold healthyThreshold =>
    apply hbelow.modify (f := fun p => { p with
      activeOk := (h.recordProbe upstream idx addr ok unhealthyThreshold healthyThreshold).1 })
    . intro p hp
      exact hp
    . intro v i
      unfold HealthRegistry.exec
      rw [slot_recordProbe]
      split
      . exact .inr rfl
      . exact .inl rfl
  | incInFlight upstream addr =>
    apply hbelow.modifyAddr
    intro p hp
    exact hp
  | decInFlight upstream addr =>
    apply hbelow.modifyAddr
    intro p hp
    exact hp

end HealthRegistry

namespace AppState

variable {ω : Type} {s : AppState ω}

def upstreamAt (s : AppState ω) (cell : Nat × String) : Option UpstreamRt :=
  s.runtimes[cell.1]?.bind fun rt => rt.upstreams.lookup cell.2

theorem swrr_eq (s : AppState ω) (cell : Nat × String) : s.swrr cell = (s.upstreamAt cell).elim [] UpstreamRt.swrr := by
  rfl

theorem upstreamAt_setSwrr (s : AppState ω) (cell cell' : Nat × String) (cur : List Int)
    : (s.setSwrr cell cur).upstreamAt cell'
        =
      if cell' = cell then
        (s.upstreamAt cell).map fun u => { u with swrr := cur }
      else
        s.upstreamAt cell' := by
  rcases cell with ⟨k, name⟩
  rcases cell' with ⟨k', name'⟩
  unfold upstreamAt setSwrr
  dsimp only
  rw [List.getElem?_modify]
  by_cases hk : k = k'
  . subst hk
    cases s.runtimes[k]? with
    | none => simp
    | some rt =>
      simp only [Option.map_eq_map, Option.map_some, Option.bind_some, if_true]
      cases hlook : rt.upstreams.lookup name with
      | none =>
        dsimp only
        split
        . next heq =>
          cases heq
          exact hlook
        . rfl
      | some u =>
        dsimp only
        split
        . next heq =>
          cases heq
          rw [AList.lookup_insert]
          rfl
        . next hne =>
          rw [AList.lookup_insert_ne]
          rintro rfl
          exact hne rfl
  . rw [if_neg (fun heq => hk (Prod.mk.inj heq).1.symm)]
    simp only [if_neg hk]
    cases s.runtimes[k']? <;> rfl

theorem upstreamAt_congr {s' : AppState ω} (h : s'.runtimes = s.runtimes) (cell : Nat × String)
    : s'.upstreamAt cell = s.upstreamAt cell := by
  unfold upstreamAt
  rw [h]

theorem upstreamAt_of_current {upstream : String} {u : UpstreamRt} (h : s.current upstream = some u)
    : s.upstreamAt (s.runtimes.length - 1, upstream) = some u := by
  unfold current at h
  rw [List.getLast?_eq_getElem?] at h
  exact h

def Balanced (s : AppState ω) : Prop :=
  ∀ cell u, s.upstreamAt cell = some u → u.up.Limited ∧ Bounded u.up u.swrr

theorem Balanced.setSwrr (h : s.Balanced) {cell : Nat × String} {cur : List Int}
    (hcur : ∀ u, s.upstreamAt cell = some u → Bounded u.up cur)
    : (s.setSwrr cell cur).Balanced := by
  intro cell' u hu
  rw [upstreamAt_setSwrr] at hu
  split at hu
  . rcases Option.map_eq_some_iff.mp hu with ⟨v, hv, rfl⟩
    exact ⟨(h cell v hv).1, hcur v hv⟩
  . exact h cell' u hu

theorem upstreamAt_publish {cfg : Config} {generation : Nat} {cell : Nat × String} {u : UpstreamRt}
    (h : upstreamAt { s with runtimes := s.runtimes ++ [.fromConfig cfg generation] } cell = some u)
    : s.upstreamAt cell = some u ∨ ∃ uc ∈ cfg.upstreams, u = .fromConfig uc := by
  unfold upstreamAt at h
  rcases Option.bind_eq_some_iff.mp h with ⟨rt, hrt, hlook⟩
  rcases Pool.getElem?_concat_cases hrt with rfl | hold
  . right
    unfold RuntimeSnapshot.fromConfig at hlook
    dsimp only at hlook
    rw [AList.lookup_foldl_insert (fun uc : UpstreamConfig => uc.name) UpstreamRt.fromConfig] at hlook
    rw [AList.lookup_empty, Option.or_none] at hlook
    rcases Option.map_eq_some_iff.mp hlook with ⟨uc, huc, rfl⟩
    exact ⟨uc, List.mem_reverse.mp (List.mem_of_find?_eq_some huc), rfl⟩
  . left
    unfold upstreamAt
    rw [hold]
    exact hlook

theorem Balanced.publish (h : s.Balanced) {cfg : Config} (generation : Nat)
    (hcfg : ∀ uc ∈ cfg.upstreams, (Upstream.fromConfig uc).Limited)
    : Balanced { s with runtimes := s.runtimes ++ [.fromConfig cfg generation] } := by
  intro cell u hu
  rcases upstreamAt_publish hu with hold | ⟨uc, huc, rfl⟩
  . exact h cell u hold
  . refine ⟨hcfg uc huc, ?_⟩
    unfold UpstreamRt.fromConfig
    dsimp only
    rw [List.map_const']
    apply bounded_zeros

def Keeps (s s' : AppState ω) : Prop :=
  ∀ cell u, s.upstreamAt cell = some u → ∃ u', s'.upstreamAt cell = some u' ∧ u'.up = u.up

theorem keeps_setSwrr (s : AppState ω) (cell : Nat × String) (cur : List Int) : s.Keeps (s.setSwrr cell cur) := by
  intro cell' u hu
  rw [upstreamAt_setSwrr]
  split
  . next heq =>
    subst heq
    rw [hu]
    exact ⟨_, rfl, rfl⟩
  . exact ⟨u, hu, rfl⟩

end AppState

namespace Request

variable {γ ω : Type} {s : AppState ω} {r : Request γ ω} {x : Input} {y : AppState ω × Request γ ω}

structure Calm (s : AppState ω) (r : Request γ ω) (y : AppState ω × Request γ ω) : Prop where
  cell : y.2.cell = r.cell
  runtimes : y.1.runtimes = s.runtimes
  stage : ∀ candidates, y.2.stage ≠ .choose candidates

section calm

variable (s : AppState ω) (r : Request γ ω)

theorem calm_finishLog (status : Nat) : Calm s r (r.finishLog s status) := by
  refine ⟨rfl, rfl, ?_⟩
  nofun

theorem calm_pick : Calm s r (r.pick s) := by
  have hbegin : r.beginAttempt.cell = r.cell := by
    unfold beginAttempt
    split <;> rfl
  unfold pick
  dsimp only
  split
  . refine ⟨hbegin, rfl, ?_⟩
    nofun
  . split
    . refine ⟨hbegin, rfl, ?_⟩
      nofun
    . refine ⟨hbegin, rfl, ?_⟩
      nofun

theorem calm_testPin (i nowMs : Nat) : Calm s r (s, r.testPin s i nowMs) := by
  unfold testPin
  split
  . refine ⟨rfl, rfl, ?_⟩
    nofun
  . refine ⟨rfl, rfl, ?_⟩
    nofun

theorem calm_chosen (i : Option Nat) : Calm s r (r.chosen s i) := by
  unfold chosen
  split
  . refine ⟨rfl, rfl, ?_⟩
    nofun
  . apply calm_finishLog

theorem calm_forward (idx : Nat) : Calm s r (s, r.forward idx) := by
  unfold forward
  split
  . refine ⟨rfl, rfl, ?_⟩
    nofun
  . refine ⟨rfl, rfl, ?_⟩
    nofun

theorem calm_answer (idx : Nat) (outcome : Outcome) : Calm s r (s, r.answer idx outcome) := by
  unfold answer
  split
  . refine ⟨rfl, rfl, ?_⟩
    nofun
  . refine ⟨rfl, rfl, ?_⟩
    nofun

theorem cell_markTried (idx : Nat) : (r.markTried idx).cell = r.cell := by
  unfold markTried
  split <;> rfl

theorem calm_afterRelease (idx : Nat) (outcome : Outcome) : Calm s r (r.afterRelease s idx outcome) := by
  have htried := cell_markTried r idx
  unfold afterRelease
  split
  . refine ⟨rfl, rfl, ?_⟩
    nofun
  . split
    . unfold nextAttempt
      split
      . refine ⟨htried, rfl, ?_⟩
        nofun
      . refine ⟨htried, rfl, ?_⟩
        nofun
    . apply calm_finishLog
  . split
    . refine ⟨rfl, rfl, ?_⟩
      nofun
    . apply calm_finishLog
  . refine ⟨htried, rfl, ?_⟩
    nofun

theorem calm_release (idx : Nat) (outcome : Outcome) : Calm s r (r.release s idx outcome) := by
  unfold release releasePeer
  split
  . next s' r' heq =>
    split at heq
    . cases heq
      exact { calm_afterRelease _ _ idx outcome with }
    . cases heq
      apply calm_afterRelease

end calm

structure Turns (s : AppState ω) (r : Request γ ω) (y : AppState ω × Request γ ω) : Prop where
  cell : y.2.cell = r.cell
  runtimes : y.1.runtimes = s.runtimes
    ∨ ∃ candidates i cur, r.stage = .choose candidates
      ∧ swrrPick r.up (s.swrr r.cell) candidates = some (i, cur)
      ∧ y.1.runtimes = (s.setSwrr r.cell cur).runtimes
  candidates : ∀ candidates, y.2.stage = .choose candidates → Candidates r.up candidates

theorem Calm.turns (h : Calm s r y) : Turns s r y where
  cell := h.cell
  runtimes := .inl h.runtimes
  candidates := by
    intro candidates hstage
    exact absurd hstage (h.stage candidates)

theorem turns_listHealthy (s : AppState ω) (r : Request γ ω) (nowMs : Nat) : Turns s r (r.listHealthy s nowMs) := by
  unfold listHealthy
  dsimp only
  split
  . exact (calm_finishLog s r 502).turns
  . next hne =>
    refine ⟨rfl, .inl rfl, ?_⟩
    intro candidates hstage
    cases hstage
    apply candidates_untriedHealthy
    simpa using hne

theorem turns_choose (s : AppState ω) {candidates : List Nat} (hstage : r.stage = .choose candidates)
    : Turns s r (r.choose s candidates) := by
  unfold choose
  split
  . split
    . next i cur hpick =>
      have hcalm := calm_chosen (s.setSwrr r.cell cur) r (some i)
      exact ⟨hcalm.cell, .inr ⟨candidates, i, cur, hstage, hpick, hcalm.runtimes⟩, hcalm.turns.candidates⟩
    . exact (calm_chosen s r none).turns
  . exact (calm_chosen s r _).turns
  . exact (calm_chosen s r _).turns

theorem turns_of_act (hact : r.act s x = some y) : Turns s r y := by
  unfold act at hact
  split at hact
  . cases hact
    exact (calm_pick s r).turns
  . next i nowMs _ =>
    cases hact
    exact (calm_testPin s r i nowMs).turns
  . next nowMs _ =>
    cases hact
    exact turns_listHealthy s r nowMs
  . next candidates _ hstage =>
    cases hact
    exact turns_choose s hstage
  . next idx _ _ =>
    unfold acquire at hact
    rcases Option.map_eq_some_iff.mp hact with ⟨p, -, rfl⟩
    exact { (calm_forward s { r with acquired := r.acquired ++ [p.addr] } idx).turns with
      runtimes := .inl rfl }
  . next idx _ =>
    cases hact
    refine ⟨rfl, .inl rfl, ?_⟩
    nofun
  . cases hact
    exact (calm_finishLog s r 502).turns
  . next idx o _ =>
    cases hact
    exact (calm_answer s r idx o).turns
  . cases hact
    refine ⟨rfl, .inl rfl, ?_⟩
    nofun
  . next idx o nowMs _ =>
    cases hact
    refine ⟨rfl, .inl rfl, ?_⟩
    nofun
  . next idx o _ _ =>
    cases hact
    exact (calm_release s r idx o).turns
  . cases hact
    refine ⟨rfl, .inl rfl, ?_⟩
    nofun
  . cases hact

end Request

structure Request.Sound {γ ω : Type} (s : AppState ω) (r : Request γ ω) : Prop where
  limited : r.up.Limited
  cell : ∃ u, s.upstreamAt r.cell = some u ∧ u.up = r.up
  candidates : ∀ candidates, r.stage = .choose candidates → Candidates r.up candidates
  attempt : r.kind = .http → r.stage.settled = false → r.attempt < r.attempts

def Task.Sound {γ ω : Type} (s : AppState ω) (t : Task γ ω) : Prop :=
  match t with
  | .request r => r.Sound s
  | .reload cfg _ _ => ∀ uc ∈ cfg.upstreams, (Upstream.fromConfig uc).Limited
  | _ => True

structure AppState.Sound {ω : Type} (s : AppState ω) : Prop where
  fails : s.health.FailsBelow
  balanced : s.Balanced

namespace Request

variable {γ ω : Type} {s s' : AppState ω} {r : Request γ ω} {x : Input} {y : AppState ω × Request γ ω}

theorem Sound.mono (h : r.Sound s) (hkeeps : s.Keeps s') : r.Sound s' := by
  rcases h.cell with ⟨u, hu, hup⟩
  rcases hkeeps r.cell u hu with ⟨u', hu', hup'⟩
  exact { h with cell := ⟨u', hu', hup'.trans hup⟩ }

theorem keeps_of_act (hact : r.act s x = some y) : s.Keeps y.1 := by
  intro cell u hu
  rcases (turns_of_act hact).runtimes with heq | ⟨candidates, i, cur, -, -, heq⟩
  . exact ⟨u, by rw [AppState.upstreamAt_congr heq, hu], rfl⟩
  . rw [AppState.upstreamAt_congr heq]
    exact AppState.keeps_setSwrr s r.cell cur cell u hu

theorem Sound.bounded (h : r.Sound s) (hs : s.Balanced) : Bounded r.up (s.swrr r.cell) := by
  rcases h.cell with ⟨u, hu, hup⟩
  rw [s.swrr_eq, hu, ← hup]
  exact (hs r.cell u hu).2

theorem fails_of_act (hact : r.act s x = some y) (h : r.Sound s) (hs : s.Sound) : y.1.health.FailsBelow := by
  rw [(act_spec hact).health]
  cases hop : r.op x with
  | none => exact hs.fails
  | some op =>
    apply hs.fails.exec
    intro upstream idx cfg nowMs heq
    subst heq
    unfold op at hop
    split at hop
    . rcases Option.map_eq_some_iff.mp hop with ⟨a, -, heq⟩
      cases heq
    . cases hop
    . cases hop
      exact h.limited.maxFails
    . rcases Option.map_eq_some_iff.mp hop with ⟨a, -, heq⟩
      cases heq
    . cases hop
    . cases hop

theorem balanced_of_act (hact : r.act s x = some y) (h : r.Sound s) (hs : s.Sound) : y.1.Balanced := by
  rcases (turns_of_act hact).runtimes with heq | ⟨candidates, i, cur, hstage, hpick, heq⟩
  . intro cell u hu
    rw [AppState.upstreamAt_congr heq] at hu
    exact hs.balanced cell u hu
  . have hbounded := h.bounded hs.balanced
    have hcandidates := h.candidates candidates hstage
    have hturn := turn_swrrPick hbounded.1 hcandidates hpick
    have hcur : Bounded r.up cur :=
      ⟨hturn.1, hturn.2.spread hcandidates.subset (fun i _ => Int.natCast_nonneg _) hbounded.2⟩
    have hbalanced : (s.setSwrr r.cell cur).Balanced := by
      apply hs.balanced.setSwrr
      intro u hu
      rcases h.cell with ⟨v, hv, hup⟩
      cases hu.symm.trans hv
      rw [hup]
      exact hcur
    intro cell u hu
    rw [AppState.upstreamAt_congr heq] at hu
    exact hbalanced cell u hu

theorem attempt_of_act (hact : r.act s x = some y) (h : r.Sound s) (hkind : r.kind = .http)
    (hsettled : y.2.stage.settled = false)
    : y.2.attempt < r.attempts := by
  cases retries_of_act hact with
  | searched hstage hkept _ _ =>
    rw [hkept.attempt]
    exact h.attempt hkind (by rw [Bool.eq_false_iff]; intro hst; simp [(Stage.settled_cases hst).1] at hstage)
  | taken hstage _ hkept _ =>
    rw [hkept.attempt]
    exact h.attempt hkind (by rw [hstage]; rfl)
  | built hstage hkept _ =>
    rw [hkept.attempt]
    exact h.attempt hkind (by rw [hstage]; rfl)
  | ended hstage _ hkept _ =>
    rw [hkept.attempt]
    exact h.attempt hkind (by rw [hstage]; rfl)
  | recorded hstage hkept _ =>
    rw [hkept.attempt]
    exact h.attempt hkind (by rw [hstage]; rfl)
  | again _ _ _ _ _ hhttp =>
    rw [(hhttp hkind).2.2]
    exact (hhttp hkind).2.1
  | settled _ _ hstage' =>
    rw [hstage'] at hsettled
    cases hsettled

theorem sound_of_act (hact : r.act s x = some y) (h : r.Sound s) (hs : s.Sound) : y.1.Sound ∧ y.2.Sound y.1 := by
  have hturns := turns_of_act hact
  have hup := (act_spec hact).up
  have hkept := h.mono (keeps_of_act hact)
  refine ⟨⟨fails_of_act hact h hs, balanced_of_act hact h hs⟩, ?_, ?_, ?_, ?_⟩
  . rw [hup]
    exact h.limited
  . rw [hturns.cell, hup]
    exact hkept.cell
  . rw [hup]
    exact hturns.candidates
  . intro hkind hsettled
    have hattempts : y.2.attempts = r.attempts := by
      unfold attempts
      rw [hup]
    rw [hattempts]
    rw [(same_of_act hact).1] at hkind
    exact attempt_of_act hact h hkind hsettled

theorem Sound.fits (h : r.Sound s) (hs : s.Sound) (hclock : ∀ nowMs, x = .tick nowMs → nowMs < 2 ^ 63)
    : r.Fits s x := by
  have hnext (hkind : r.kind = .http) (hsettled : r.stage.settled = false) : r.attempt + 1 < 2 ^ 32 := by
    have hlt := h.attempt hkind hsettled
    have hword : r.attempts < 2 ^ 32 := Nat.mod_lt _ (by decide)
    omega
  unfold Fits
  split
  . next hstage =>
    intro hkind
    exact hnext hkind (by rw [hstage]; rfl)
  . next candidates _ hstage =>
    intro _
    have hbounded := h.bounded hs.balanced
    have hcandidates := h.candidates candidates hstage
    have hpos : 1 ≤ r.up.peers.length := by
      rcases List.exists_mem_of_ne_nil candidates hcandidates.ne_nil with ⟨i, hi⟩
      have := hcandidates.lt_length i hi
      omega
    have hle : r.up.totalWeight ≤ r.up.peers.length * r.up.totalWeight := Nat.le_mul_of_pos_left _ hpos
    have hweights := h.limited.weights
    have hcast : (r.up.peers.length : Int) * r.up.totalWeight < 2 ^ 63 := by exact_mod_cast hweights
    apply swrrPick64_eq hbounded.1 hcandidates
    . intro eff heff
      have := hbounded.abs_le eff heff
      linarith
    . omega
  . trivial
  . next idx _ nowMs _ _ =>
    rintro ⟨a, p⟩ hslot
    exact p.failureFits h.limited (hs.fails _ _ _ hslot) (hclock nowMs rfl)
  . next hstage =>
    intro hkind
    exact hnext hkind (by rw [hstage]; rfl)
  . trivial

end Request

namespace Task

variable {γ ω : Type} {s s' : AppState ω} {t t' : Task γ ω} {x : Input}

theorem Sound.mono (h : t.Sound s) (hkeeps : s.Keeps s') : t.Sound s' := by
  cases t with
  | request r => exact Request.Sound.mono h hkeeps
  | reload cfg generation rest => exact h
  | arriving | probe | stopped => trivial

theorem runtimes_load {kind : RequestKind} {method upstream : String} {session : RequestSession γ ω}
    : (load s kind method upstream session).1.runtimes = s.runtimes := by
  unfold load
  split
  . dsimp only
    split
    . rfl
    . rfl
  . rfl

theorem sound_load (hs : s.Sound) (kind : RequestKind) (method upstream : String)
    (session : RequestSession γ ω)
    : (load s kind method upstream session).2.Sound (load s kind method upstream session).1 := by
  have hkeeps : s.Keeps (load s kind method upstream session).1 := by
    intro cell u hu
    exact ⟨u, by rw [AppState.upstreamAt_congr runtimes_load, hu], rfl⟩
  apply Sound.mono _ hkeeps
  unfold load
  split
  . next u hu =>
    have hcell := AppState.upstreamAt_of_current hu
    have hlimited := (hs.balanced _ u hcell).1
    dsimp only
    split
    . refine ⟨hlimited, ⟨u, hcell, rfl⟩, ?_, ?_⟩
      . nofun
      . nofun
    . next hnot =>
      refine ⟨hlimited, ⟨u, hcell, rfl⟩, ?_, ?_⟩
      . nofun
      . intro hkind _
        apply Nat.pos_of_ne_zero
        intro hzero
        exact hnot ⟨hkind, hzero⟩
  . trivial

theorem sound_of_act (h : t.act s x = some (s', t')) (ht : t.Sound s) (hs : s.Sound)
    : s'.Sound ∧ s.Keeps s' ∧ t'.Sound s' := by
  cases t with
  | request r =>
    simp only [act, Option.map_eq_some_iff, Prod.mk.injEq] at h
    rcases h with ⟨⟨s'', r'⟩, hact, rfl, rfl⟩
    have hsound := Request.sound_of_act hact ht hs
    exact ⟨hsound.1, Request.keeps_of_act hact, hsound.2⟩
  | arriving kind method upstream session =>
    cases x <;> simp only [act, Option.some_inj, reduceCtorEq] at h
    . have hhealth := (load_spec h).1
      have hruntimes : (load s kind method upstream session).1.runtimes = s.runtimes := runtimes_load
      have hsound := sound_load hs kind method upstream session
      rw [h] at hruntimes hsound
      refine ⟨⟨?_, ?_⟩, ?_, hsound⟩
      . rw [hhealth]
        exact hs.fails
      . intro cell u hu
        rw [AppState.upstreamAt_congr hruntimes] at hu
        exact hs.balanced cell u hu
      . intro cell u hu
        exact ⟨u, by rw [AppState.upstreamAt_congr hruntimes, hu], rfl⟩
    . cases h
      exact ⟨hs, fun cell u hu => ⟨u, hu, rfl⟩, trivial⟩
  | reload cfg generation rest =>
    cases rest <;> cases x <;> simp only [act, Option.some_inj, reduceCtorEq] at h <;> cases h
    . refine ⟨⟨hs.fails, hs.balanced.publish generation ht⟩, ?_, trivial⟩
      intro cell u hu
      refine ⟨u, ?_, rfl⟩
      unfold AppState.upstreamAt at hu ⊢
      rcases Option.bind_eq_some_iff.mp hu with ⟨rt, hrt, hlook⟩
      dsimp only
      rw [List.getElem?_append_left (List.getElem?_eq_some_iff.mp hrt).1, hrt]
      exact hlook
    . refine ⟨⟨?_, hs.balanced⟩, fun cell u hu => ⟨u, hu, rfl⟩, ht⟩
      apply hs.fails.register
  | probe upstream idx addr ok unhealthyThreshold healthyThreshold =>
    cases x <;> simp only [act, Option.some_inj, reduceCtorEq] at h
    cases h
    refine ⟨⟨?_, hs.balanced⟩, fun cell u hu => ⟨u, hu, rfl⟩, trivial⟩
    change (HealthRegistry.exec _
      (.recordProbe upstream idx addr ok unhealthyThreshold healthyThreshold)).FailsBelow
    apply hs.fails.exec
    intro _ _ _ _ hop
    cases hop
  | stopped => cases x <;> simp [act] at h

theorem Sound.fits (h : t.Sound s) (hs : s.Sound) (hclock : ∀ nowMs, x = .tick nowMs → nowMs < 2 ^ 63)
    : t.Fits s x := by
  unfold Fits
  split
  . intro u hu
    exact (hs.balanced _ u (AppState.upstreamAt_of_current hu)).1.retries
  . exact Request.Sound.fits h hs hclock
  . trivial

end Task

namespace Server

variable {γ ω : Type}

def Fits (p : Server γ ω) (e : Pool.Event (Arrival γ ω) Input) : Prop :=
  match e with
  | .spawn _ => True
  | .step i x => ∀ t ∈ p.threads[i]?, t.Fits p.shared x

instance (p : Server γ ω) (e : Pool.Event (Arrival γ ω) Input) : Decidable (p.Fits e) :=
  match e with
  | .spawn _ => isTrue trivial
  | .step i x => inferInstanceAs (Decidable (∀ t ∈ p.threads[i]?, t.Fits p.shared x))

def Limited (e : Pool.Event (Arrival γ ω) Input) : Prop :=
  match e with
  | .spawn (.reload cfg _) => ∀ uc ∈ cfg.upstreams, (Upstream.fromConfig uc).Limited
  | _ => True

structure Sound (p : Server γ ω) : Prop where
  shared : p.shared.Sound
  threads : ∀ (j : Nat) t, p.threads[j]? = some t → t.Sound p.shared

theorem sound_init (world : World ω) : Sound (init world : Server γ ω) where
  shared := by
    refine ⟨?_, ?_⟩
    . intro upstream i x hx
      cases hx
    . intro cell u hu
      cases hu
  threads := by
    intro j t ht
    cases ht

theorem Sound.step {p q : Server γ ω} (h : Sound p) {e : Pool.Event (Arrival γ ω) Input} (he : Limited e)
    (hstep : step p e = some q)
    : Sound q := by
  rcases Pool.step_cases _ _ hstep with ⟨a, rfl, rfl⟩ | ⟨i, x, t, s, t', rfl, ht, hact, rfl⟩
  . refine ⟨h.shared, Pool.forall_concat ?_ h.threads⟩
    cases a with
    | reload cfg generation => exact he
    | request | probe => trivial
  . have hsound := Task.sound_of_act hact (h.threads i t ht) h.shared
    refine ⟨hsound.1, Pool.forall_set hsound.2.2 ?_⟩
    intro j u _ hu
    exact (h.threads j u hu).mono hsound.2.1

theorem Sound.fits {p : Server γ ω} (h : Sound p) {e : Pool.Event (Arrival γ ω) Input}
    (hclock : ∀ i nowMs, e = .step i (.tick nowMs) → nowMs < 2 ^ 63)
    : p.Fits e := by
  cases e with
  | spawn a => trivial
  | step i x =>
    intro t ht
    apply (h.threads i t ht).fits h.shared
    rintro nowMs rfl
    exact hclock i nowMs rfl

theorem sums_fit_of_limited {world : World ω} {es : List (Pool.Event (Arrival γ ω) Input)} {p : Server γ ω}
    {e : Pool.Event (Arrival γ ω) Input} (hlimited : ∀ e ∈ es, Limited e)
    (hclock : ∀ i nowMs, e = .step i (.tick nowMs) → nowMs < 2 ^ 63)
    (hrun : Machine.run step (init world) es = some p)
    : p.Fits e := by
  have hguarded : Machine.Guarded step (fun _ e => Limited e) (init world) es :=
    Machine.guarded_of_forall hlimited _
  have hsound : Sound p := Machine.inv_of_run (fun p e q h he hstep => h.step he hstep) (sound_init world)
    hguarded hrun
  exact hsound.fits hclock

def unlimited (retries failTimeoutS : Nat) : Config where
  upstreams := [{
    name := "u"
    retries := retries
    peers := [{ addr := primary }]
    health := { maxFails := 1, failTimeoutS := failTimeoutS } }]
  routes := [{ pathPrefix := "/", upstream := "u" }]

def upAndArriving (cfg : Config) : List (Pool.Event (Arrival Unit Unit) Input) :=
  [.spawn (.reload cfg 1), .step 0 (.tick 0), .step 0 (.tick 0),
    .spawn (.request .http "GET" "u" (.new [] .empty []))]

def refusedOnce : List (Pool.Event (Arrival Unit Unit) Input) :=
  [.step 1 (.tick 1)] ++ attemptSteps ++ [.step 1 (.outcome (.failed .connect))]

theorem sums_fit_of_limited_refusedOnce
    : ∃ p, Machine.run step (init idleWorld) (upAndArriving (unlimited 1 30) ++ refusedOnce) = some p
      ∧ p.Fits (.step 1 (.tick 6)) := by
  have hrun : (Machine.run step (init idleWorld) (upAndArriving (unlimited 1 30) ++ refusedOnce)).isSome := by
    decide +kernel
  rcases Option.isSome_iff_exists.mp hrun with ⟨p, hp⟩
  refine ⟨p, hp, sums_fit_of_limited ?_ ?_ hp⟩
  . intro e he
    rcases List.mem_cons.mp he with rfl | he
    . intro uc huc
      cases List.mem_singleton.mp huc
      exact ⟨by decide, by decide, by decide, by decide⟩
    . have hno : ∀ e ∈ (upAndArriving (unlimited 1 30)).tail ++ refusedOnce, Limited e := by
        unfold upAndArriving refusedOnce attemptSteps
        simp [Limited]
      exact hno e he
  . rintro i nowMs heq
    cases heq
    decide

theorem sums_overflow
    : (unlimited (2 ^ 32 - 1) 30).validate = .ok () ∧ (unlimited 1 (2 ^ 64 - 1)).validate = .ok ()
      ∧ (∃ p, Machine.run step (init idleWorld) (upAndArriving (unlimited (2 ^ 32 - 1) 30)) = some p
        ∧ ¬p.Fits (.step 1 (.tick 1)))
      ∧ ∃ p, Machine.run step (init idleWorld) (upAndArriving (unlimited 1 (2 ^ 64 - 1)) ++ refusedOnce) = some p
        ∧ ¬p.Fits (.step 1 (.tick 6)) := by
  have hretries : (Machine.run step (init idleWorld) (upAndArriving (unlimited (2 ^ 32 - 1) 30))).map
      (fun p => decide (p.Fits (.step 1 (.tick 1)))) = some false := by
    decide +kernel
  have hdown : (Machine.run step (init idleWorld) (upAndArriving (unlimited 1 (2 ^ 64 - 1)) ++ refusedOnce)).map
      (fun p => decide (p.Fits (.step 1 (.tick 6)))) = some false := by
    decide +kernel
  rcases Option.map_eq_some_iff.mp hretries with ⟨p, hp, hfits⟩
  rcases Option.map_eq_some_iff.mp hdown with ⟨q, hq, hfits'⟩
  exact ⟨by decide +kernel, by decide +kernel, ⟨p, hp, of_decide_eq_false hfits⟩, q, hq, of_decide_eq_false hfits'⟩

end Server

end OpenRusty
