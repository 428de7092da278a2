import OpenRusty.Lib.Machine
import OpenRusty.Proxy.Health.Lemmas

/-!
This module contains the active plane of the health registry. The verdicts of the probes are kept by
address, the slots that requests read carry copies of them by position, and a registration fills the
copies of its slots from the verdicts.
-/

namespace OpenRusty

namespace HealthOp

def writesFlags (op : HealthOp) (upstream : String) : Bool :=
  match op with
  | .register u _ => u == upstream
  | .recordProbe u _ _ _ _ _ => u == upstream
  | _ => false

end HealthOp

namespace HealthRegistry

def step (h : HealthRegistry) (op : HealthOp) : Option HealthRegistry := some (h.exec op)

def flag (h : HealthRegistry) (upstream : String) (i : Nat) : Option (SocketAddr × Bool) :=
  (h.slot upstream i).map fun x => (x.1, x.2.activeOk)

section flag

variable (h : HealthRegistry) (upstream v : String) (i : Nat)

theorem flag_eq_some {a : SocketAddr} {b : Bool}
    : h.flag v i = some (a, b) ↔ ∃ p, h.slot v i = some (a, p) ∧ p.activeOk = b := by
  simp [flag]

theorem flag_modifyAt {f : PeerHealth → PeerHealth} (hf : ∀ p, (f p).activeOk = p.activeOk)
    (idx : Nat)
    : (h.modifyAt upstream idx f).flag v i = h.flag v i := by
  unfold flag
  rw [slot_modifyAt]
  split
  . rw [Option.map_map]
    simp only [Function.comp_def, hf]
  . rfl

theorem flag_modifyAddr {f : PeerHealth → PeerHealth} (hf : ∀ p, (f p).activeOk = p.activeOk)
    (addr : SocketAddr)
    : (h.modifyAddr upstream addr f).flag v i = h.flag v i := by
  unfold flag
  rw [slot_modifyAddr]
  split
  . rw [Option.map_map]
    simp only [Function.comp_def, hf]
  . rfl

theorem flag_register (addrs : List SocketAddr)
    : (h.register upstream addrs).flag v i
        =
      if v = upstream then
        addrs[i]?.map fun a => (a, h.isActiveHealthy upstream a)
      else
        h.flag v i := by
  unfold flag
  rw [slot_register]
  split
  . rw [Option.map_map]
    simp only [Function.comp_def, activeOk_inherit]
  . rfl

theorem activeOk_recordFailure (p : PeerHealth) (cfg : HealthConfig) (nowMs : Nat)
    : (p.recordFailure cfg nowMs).activeOk = p.activeOk := by
  unfold PeerHealth.recordFailure
  dsimp
  split
  . rfl
  . rfl

theorem flag_recordFailure (idx : Nat) (cfg : HealthConfig) (nowMs : Nat)
    : (h.recordFailure upstream idx cfg nowMs).flag v i = h.flag v i := by
  unfold recordFailure
  split
  . rfl
  . apply flag_modifyAt
    intro p
    apply activeOk_recordFailure

theorem active_recordFailure (idx : Nat) (cfg : HealthConfig) (nowMs : Nat)
    : (h.recordFailure upstream idx cfg nowMs).active = h.active := by
  unfold recordFailure
  split
  . rfl
  . apply active_modifyAt

theorem flag_recordProbe (idx : Nat) (addr : SocketAddr) (ok : Bool)
    (unhealthyThreshold healthyThreshold : Nat)
    : (h.recordProbe upstream idx addr ok unhealthyThreshold healthyThreshold).2.flag v i
        =
      if v = upstream ∧ i = idx then
        (h.flag v i).map fun x => (x.1,
          (h.recordProbe upstream idx addr ok unhealthyThreshold healthyThreshold).1)
      else
        h.flag v i := by
  unfold flag
  rw [slot_recordProbe]
  split
  . rw [Option.map_map, Option.map_map]
    rfl
  . rfl

theorem flag_exec {op : HealthOp} (hop : op.writesFlags v = false)
    : (h.exec op).flag v i = h.flag v i := by
  cases op with
  | register u addrs =>
    have hne : v ≠ u := by
      intro heq
      simp [HealthOp.writesFlags, heq] at hop
    unfold exec
    rw [flag_register, if_neg hne]
  | recordFailure u idx cfg nowMs => apply flag_recordFailure
  | recordSuccess u idx nowMs =>
    apply flag_modifyAt
    intro p
    rfl
  | recordProbe u idx addr ok unhealthyThreshold healthyThreshold =>
    have hne : ¬(v = u ∧ i = idx) := by
      intro heq
      simp [HealthOp.writesFlags, heq] at hop
    unfold exec
    rw [flag_recordProbe, if_neg hne]
  | incInFlight u addr =>
    apply flag_modifyAddr
    intro p
    rfl
  | decInFlight u addr =>
    apply flag_modifyAddr
    intro p
    rfl

end flag

def Mirrored (h : HealthRegistry) : Prop :=
  ∀ upstream i addr peer, h.slot upstream i = some (addr, peer) →
    peer.activeOk = h.isActiveHealthy upstream addr

theorem mirrored_iff {h : HealthRegistry}
    : h.Mirrored ↔ ∀ v i a b, h.flag v i = some (a, b) → b = h.isActiveHealthy v a := by
  constructor
  . intro hm v i a b hflag
    obtain ⟨p, hslot, rfl⟩ := (flag_eq_some h v i).mp hflag
    exact hm v i a p hslot
  . intro hm v i a p hslot
    apply hm v i
    exact (flag_eq_some h v i).mpr ⟨p, hslot, rfl⟩

theorem mirrored_new : new.Mirrored := by
  intro upstream i addr peer hslot
  cases hslot

theorem Mirrored.congr {h h' : HealthRegistry} (hm : h.Mirrored)
    (hflag : ∀ v i, h'.flag v i = h.flag v i) (hactive : h'.active = h.active)
    : h'.Mirrored := by
  rw [mirrored_iff] at hm ⊢
  intro v i a b hslot
  rw [isActiveHealthy_congr hactive]
  rw [hflag] at hslot
  exact hm v i a b hslot

theorem Mirrored.register {h : HealthRegistry} (hm : h.Mirrored) (upstream : String)
    (addrs : List SocketAddr)
    : (h.register upstream addrs).Mirrored := by
  rw [mirrored_iff] at hm ⊢
  intro v i a b hflag
  rw [isActiveHealthy_congr (active_register h upstream addrs)]
  rw [flag_register] at hflag
  split at hflag
  . next hv =>
    subst hv
    simp only [Option.map_eq_some_iff, Prod.mk.injEq] at hflag
    obtain ⟨_, -, rfl, rfl⟩ := hflag
    rfl
  . exact hm v i a b hflag

/-- The condition on a probe: its position is the only one that is registered with its address. -/
def ProbesCurrent (h : HealthRegistry) (op : HealthOp) : Prop :=
  match op with
  | .recordProbe upstream idx addr _ _ _ =>
    ∀ i < (h.registered upstream).length, (h.registered upstream)[i]? = some addr ↔ i = idx
  | _ => True

instance (h : HealthRegistry) (op : HealthOp) : Decidable (h.ProbesCurrent op) := by
  unfold ProbesCurrent
  split <;> infer_instance

theorem Mirrored.recordProbe {h : HealthRegistry} (hm : h.Mirrored) {upstream : String} {idx : Nat}
    {addr : SocketAddr} {ok : Bool} {unhealthyThreshold healthyThreshold : Nat}
    (hok : h.ProbesCurrent (.recordProbe upstream idx addr ok unhealthyThreshold healthyThreshold))
    : (h.recordProbe upstream idx addr ok unhealthyThreshold healthyThreshold).2.Mirrored := by
  rw [mirrored_iff] at hm ⊢
  intro v i a b hflag
  rw [isActiveHealthy_recordProbe]
  rw [flag_recordProbe] at hflag
  -- The slot that is written and the slots of the probed address are the same ones.
  have hpos : ∀ b, h.flag upstream i = some (a, b) → (a = addr ↔ i = idx) := by
    intro b hb
    obtain ⟨p, hslot, -⟩ := (flag_eq_some h upstream i).mp hb
    have haddr := map_fst_slot h upstream i
    rw [hslot] at haddr
    have hlt := (List.getElem?_eq_some_iff.mp haddr.symm).1
    rw [← hok i hlt, ← haddr]
    simp
  split at hflag
  . next heq =>
    obtain ⟨rfl, hi⟩ := heq
    obtain ⟨⟨a', b'⟩, hb', hab⟩ := Option.map_eq_some_iff.mp hflag
    cases hab
    rw [if_pos ⟨rfl, (hpos b' hb').mpr hi⟩]
  . next heq =>
    rw [if_neg]
    . exact hm v i a b hflag
    . rintro ⟨rfl, ha⟩
      apply heq
      exact ⟨rfl, (hpos b hflag).mp ha⟩

theorem Mirrored.exec {h : HealthRegistry} (hm : h.Mirrored) {op : HealthOp}
    (hok : h.ProbesCurrent op)
    : (h.exec op).Mirrored := by
  cases op with
  | register u addrs => exact hm.register u addrs
  | recordProbe u idx addr ok unhealthyThreshold healthyThreshold => exact hm.recordProbe hok
  | recordFailure u idx cfg nowMs =>
    apply hm.congr
    . intro v i
      apply flag_exec
      rfl
    . apply active_recordFailure
  | recordSuccess u idx nowMs =>
    apply hm.congr
    . intro v i
      apply flag_exec
      rfl
    . apply active_modifyAt
  | incInFlight u addr =>
    apply hm.congr
    . intro v i
      apply flag_exec
      rfl
    . apply active_modifyAddr
  | decInFlight u addr =>
    apply hm.congr
    . intro v i
      apply flag_exec
      rfl
    . apply active_modifyAddr

end HealthRegistry

theorem active_mirrored_of_current (ops : List HealthOp) (h : HealthRegistry)
    (hok : Machine.Guarded HealthRegistry.step HealthRegistry.ProbesCurrent HealthRegistry.new ops)
    (hrun : Machine.run HealthRegistry.step HealthRegistry.new ops = some h)
    : h.Mirrored := by
  apply Machine.inv_of_run _ HealthRegistry.mirrored_new hok hrun
  intro h op h' hm hop hstep
  cases hstep
  exact hm.exec hop

def peerA : SocketAddr := { ip := .v4 0x0a000001, port := 80 }

def peerB : SocketAddr := { ip := .v4 0x0a000002, port := 80 }

def reorderedProbes : List HealthOp :=
  [.register "u" [peerA, peerB], .recordProbe "u" 0 peerA false 1 2, .register "u" [peerB, peerA],
    .recordProbe "u" 0 peerB true 1 2]

theorem active_mirrored_of_current_reorderedProbes
    : ∃ h, Machine.run HealthRegistry.step HealthRegistry.new reorderedProbes = some h
      ∧ h.isHealthy "u" 1 0 = false
      ∧ h.Mirrored := by
  refine ⟨_, rfl, ?_, ?_⟩
  . decide +kernel
  . apply active_mirrored_of_current reorderedProbes _ _ rfl
    decide +kernel

theorem active_mirror_stale_position
    : ∃ h, Machine.run HealthRegistry.step HealthRegistry.new
        [.register "u" [peerA, peerB], .register "u" [peerB, peerA],
          .recordProbe "u" 0 peerA false 1 1] = some h
      ∧ ¬ h.Mirrored := by
  refine ⟨_, rfl, ?_⟩
  intro hm
  have := hm "u" 0 peerB { activeOk := false } (by decide +kernel)
  revert this
  decide +kernel

namespace HealthRegistry

def passiveHealthy (h : HealthRegistry) (upstream : String) (idx nowMs : Nat) : Bool :=
  (h.slot upstream idx).all fun x => decide (x.2.downUntilMs ≤ nowMs)

def passiveIndices (h : HealthRegistry) (upstream : String) (peerCount nowMs : Nat) : List Nat :=
  (List.range peerCount).filter fun i => h.passiveHealthy upstream i nowMs

theorem isHealthy_eq_passiveHealthy_iff (h : HealthRegistry) (upstream : String)
    : (∀ nowMs idx, h.isHealthy upstream idx nowMs = h.passiveHealthy upstream idx nowMs)
        ↔
      ∀ i a b, h.flag upstream i = some (a, b) → b = true := by
  simp only [isHealthy_eq, passiveHealthy]
  constructor
  . intro heq i a b hflag
    obtain ⟨p, hslot, rfl⟩ := (flag_eq_some h upstream i).mp hflag
    have := heq p.downUntilMs i
    simpa [hslot, PeerHealth.isUp] using this
  . intro hall nowMs idx
    cases hslot : h.slot upstream idx with
    | none => rfl
    | some x =>
      have hok : x.2.activeOk = true := by
        apply hall idx x.1
        rw [flag_eq_some]
        exact ⟨x.2, hslot, rfl⟩
      simp [PeerHealth.isUp, hok]

def verdictAt (h : HealthRegistry) (upstream : String) (i : Nat) (op : HealthOp) : Option Bool :=
  match op with
  | .recordProbe u idx addr ok unhealthyThreshold healthyThreshold =>
    if u = upstream ∧ idx = i then
      some (h.recordProbe u idx addr ok unhealthyThreshold healthyThreshold).1
    else
      none
  | _ => none

def lateVerdict (upstream : String) (i : Nat) (h : HealthRegistry) (ops : List HealthOp) : Option Bool :=
  match ops with
  | [] => none
  | op :: ops => (lateVerdict upstream i (h.exec op) ops).or (h.verdictAt upstream i op)

theorem flag_exec_verdictAt (h : HealthRegistry) {upstream : String} (i : Nat) {op : HealthOp}
    (hop : op.registers upstream = none)
    : (h.exec op).flag upstream i
        = (h.flag upstream i).map fun x => (x.1, (h.verdictAt upstream i op).getD x.2) := by
  have hid : (h.flag upstream i).map (fun x => (x.1, x.2)) = h.flag upstream i := by simp
  cases op with
  | register u addrs =>
    rw [flag_exec h upstream i]
    . exact hid.symm
    . have hne : upstream ≠ u := by simpa [HealthOp.registers] using hop
      simp [HealthOp.writesFlags, hne.symm]
  | recordProbe u idx addr ok unhealthyThreshold healthyThreshold =>
    rw [exec, flag_recordProbe]
    by_cases hpos : u = upstream ∧ idx = i
    . rw [if_pos ⟨hpos.1.symm, hpos.2.symm⟩]
      simp [verdictAt, hpos]
    . rw [if_neg fun heq => hpos ⟨heq.1.symm, heq.2.symm⟩]
      simp [verdictAt, hpos]
  | _ =>
    rw [flag_exec h upstream i rfl]
    exact hid.symm

theorem flag_run {upstream : String} {ops : List HealthOp} {h h' : HealthRegistry}
    (hops : ∀ op ∈ ops, op.registers upstream = none) (hrun : Machine.run step h ops = some h') (i : Nat)
    : h'.flag upstream i
        = (h.flag upstream i).map fun x => (x.1, (lateVerdict upstream i h ops).getD x.2) := by
  induction ops generalizing h with
  | nil =>
    cases hrun
    simp [lateVerdict]
  | cons op ops ih =>
    have hrest : Machine.run step (h.exec op) ops = some h' := hrun
    rw [ih (fun op' hop' => hops op' (List.mem_cons_of_mem _ hop')) hrest,
      flag_exec_verdictAt h i (hops op List.mem_cons_self), Option.map_map]
    simp only [Function.comp_def, lateVerdict, Option.getD_or]

end HealthRegistry

/--
The upstream gets its peers by the last reload. The prober of the configuration before it is stopped only after the
registration, so its last verdicts may come behind it.
-/
theorem passive_alone_iff_no_verdict_down (h₀ h : HealthRegistry) (upstream : String)
    (addrs : List SocketAddr) (after : List HealthOp)
    (hafter : Machine.run HealthRegistry.step h₀ (.register upstream addrs :: after) = some h)
    (hlast : ∀ op ∈ after, op.registers upstream = none)
    : (∀ nowMs, (∀ idx, h.isHealthy upstream idx nowMs = h.passiveHealthy upstream idx nowMs)
        ∧ ∀ n, h.healthyIndices upstream n nowMs = h.passiveIndices upstream n nowMs)
        ↔
      ∀ (i : Nat) addr, addrs[i]? = some addr →
        (HealthRegistry.lateVerdict upstream i (h₀.register upstream addrs) after).getD
          (h₀.isActiveHealthy upstream addr) = true := by
  have hflag : ∀ i, h.flag upstream i
      = addrs[i]?.map fun a => (a, (HealthRegistry.lateVerdict upstream i (h₀.register upstream addrs) after).getD
          (h₀.isActiveHealthy upstream a)) := by
    intro i
    have hrest : Machine.run HealthRegistry.step (h₀.register upstream addrs) after = some h := hafter
    rw [HealthRegistry.flag_run hlast hrest, HealthRegistry.flag_register, if_pos rfl, Option.map_map]
    rfl
  have hindices : (∀ nowMs, (∀ idx, h.isHealthy upstream idx nowMs
        = h.passiveHealthy upstream idx nowMs)
      ∧ ∀ n, h.healthyIndices upstream n nowMs = h.passiveIndices upstream n nowMs)
      ↔ ∀ nowMs idx, h.isHealthy upstream idx nowMs = h.passiveHealthy upstream idx nowMs := by
    constructor
    . intro hall nowMs
      exact (hall nowMs).1
    . intro hall nowMs
      refine ⟨hall nowMs, ?_⟩
      intro n
      rw [HealthRegistry.healthyIndices_eq]
      simp only [hall, HealthRegistry.passiveIndices]
  rw [hindices, HealthRegistry.isHealthy_eq_passiveHealthy_iff]
  constructor
  . intro hall i addr haddr
    apply hall i addr
    rw [hflag, haddr]
    rfl
  . intro hall i a b hb
    rw [hflag, Option.map_eq_some_iff] at hb
    obtain ⟨a', ha', heq⟩ := hb
    cases heq
    exact hall i a ha'

def checksRemoved : List HealthOp :=
  [.register "u" [peerA], .recordProbe "u" 0 peerA false 1 1, .recordProbe "u" 0 peerA true 1 1]

def lateProbe : List HealthOp :=
  [.recordFailure "u" 1 { maxFails := 1, failTimeoutS := 10, failWindowS := 10 } 7, .recordProbe "u" 1 peerA false 1 1]

theorem passive_alone_iff_no_verdict_down_checksRemoved
    : ∃ h₀ h h', Machine.run HealthRegistry.step HealthRegistry.new checksRemoved = some h₀
        ∧ Machine.run HealthRegistry.step h₀ (.register "u" [peerB, peerA] :: lateProbe.take 1) = some h
        ∧ Machine.run HealthRegistry.step h₀ (.register "u" [peerB, peerA] :: lateProbe) = some h'
        ∧ (∀ nowMs, (∀ idx, h.isHealthy "u" idx nowMs = h.passiveHealthy "u" idx nowMs)
          ∧ ∀ n, h.healthyIndices "u" n nowMs = h.passiveIndices "u" n nowMs)
        ∧ ¬∀ nowMs, (∀ idx, h'.isHealthy "u" idx nowMs = h'.passiveHealthy "u" idx nowMs)
          ∧ ∀ n, h'.healthyIndices "u" n nowMs = h'.passiveIndices "u" n nowMs := by
  refine ⟨_, _, _, rfl, rfl, rfl, ?_, ?_⟩
  . refine (passive_alone_iff_no_verdict_down _ _ "u" [peerB, peerA] (lateProbe.take 1) rfl ?_).mpr ?_
    . decide
    . intro i addr haddr
      match i with
      | 0 =>
        cases haddr
        decide +kernel
      | 1 =>
        cases haddr
        decide +kernel
  . intro hall
    have hlate := (passive_alone_iff_no_verdict_down _ _ "u" [peerB, peerA] lateProbe rfl (by decide)).mp hall 1 peerA
      rfl
    revert hlate
    decide +kernel

theorem excluded_for_ever_after_checks_removed
    : ∃ h, Machine.run HealthRegistry.step HealthRegistry.new
        [.register "u" [peerA, peerB], .recordProbe "u" 0 peerA false 1 1,
          .register "u" [peerA, peerB]] = some h
      ∧ ∀ nowMs, h.isHealthy "u" 0 nowMs = false ∧ h.passiveHealthy "u" 0 nowMs = true
        ∧ 0 ∉ h.healthyIndices "u" 2 nowMs := by
  refine ⟨_, rfl, ?_⟩
  intro nowMs
  have hslot : (((HealthRegistry.new.exec (.register "u" [peerA, peerB])).exec
      (.recordProbe "u" 0 peerA false 1 1)).exec (.register "u" [peerA, peerB])).slot "u" 0
        = some (peerA, { activeOk := false }) := by
    decide +kernel
  rw [HealthRegistry.healthyIndices_eq, HealthRegistry.isHealthy_eq, HealthRegistry.passiveHealthy]
  simp [HealthRegistry.isHealthy_eq, hslot, PeerHealth.isUp]

end OpenRusty
