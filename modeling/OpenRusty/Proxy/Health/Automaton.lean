import Mathlib.Algebra.Group.Nat.Defs
import OpenRusty.Lib.Runs
import OpenRusty.Proxy.Health.Active

/-!
This module contains the meaning of the active plane: the verdict on an address says whether its probes
failed often enough in a row without having recovered since. Only the counter that matters for the
verdict is exact, the other one may have wrapped around.
-/

namespace OpenRusty

namespace ActivePeer

def probe (unhealthyThreshold healthyThreshold : Nat) (p : ActivePeer) (ok : Bool) : ActivePeer :=
  match evaluateActive p.healthy p.fails p.successes ok unhealthyThreshold healthyThreshold with
  | (healthy, fails, successes) => { healthy, fails, successes }

structure Judges (unhealthyThreshold healthyThreshold : Nat) (rs : List Bool) (p : ActivePeer) : Prop where
  verdict : p.healthy = false ↔ Runs.Tripped unhealthyThreshold healthyThreshold rs
  fails : p.healthy = true → p.fails = Runs.runLength false rs ∧ p.fails < unhealthyThreshold
  successes : p.healthy = false → p.successes = Runs.runLength true rs ∧ p.successes < healthyThreshold

namespace Judges

variable {unhealthyThreshold healthyThreshold : Nat} {rs : List Bool} {p : ActivePeer}

theorem new (hu : 1 ≤ unhealthyThreshold) : Judges unhealthyThreshold healthyThreshold [] {} where
  verdict := by
    simp [Runs.not_tripped_nil hu]
  fails := by
    intro _
    exact ⟨rfl, hu⟩
  successes := by
    intro h
    cases h

theorem probe_false (h : Judges unhealthyThreshold healthyThreshold rs p)
    (hu : unhealthyThreshold < 2 ^ 32) (hh : 1 ≤ healthyThreshold)
    : Judges unhealthyThreshold healthyThreshold (rs ++ [false])
        (p.probe unhealthyThreshold healthyThreshold false) := by
  rcases p with ⟨healthy, fails, successes⟩
  have hrun := Runs.runLength_concat_self false rs
  cases healthy with
  | false =>
    constructor
    . rw [Runs.tripped_concat_false hh]
      simp [probe, evaluateActive, h.verdict.mp rfl]
    . intro hhealthy
      simp [probe, evaluateActive] at hhealthy
    . intro _
      rw [Runs.runLength_concat_ne (by decide)]
      exact ⟨rfl, hh⟩
  | true =>
    rcases h.fails rfl with ⟨hfails, hlt⟩
    dsimp only at hfails hlt
    have hadd : Word.wrappingAdd 32 fails 1 = fails + 1 := Word.wrappingAdd_eq (by omega)
    have hnot : ¬Runs.Tripped unhealthyThreshold healthyThreshold rs := by
      rw [← h.verdict]
      simp
    have hprobe : probe unhealthyThreshold healthyThreshold ⟨true, fails, successes⟩ false
        = ⟨decide (fails + 1 < unhealthyThreshold), fails + 1, 0⟩ := by
      rw [← hadd]
      rfl
    rw [hprobe]
    constructor
    . rw [Runs.tripped_concat_false hh, hrun, decide_eq_false_iff_not]
      simp only [hnot, false_or]
      omega
    . intro hhealthy
      rw [decide_eq_true_iff] at hhealthy
      dsimp only
      omega
    . intro _
      rw [Runs.runLength_concat_ne (by decide)]
      exact ⟨rfl, hh⟩

theorem probe_true (h : Judges unhealthyThreshold healthyThreshold rs p) (hu : 1 ≤ unhealthyThreshold)
    (hh : healthyThreshold < 2 ^ 32)
    : Judges unhealthyThreshold healthyThreshold (rs ++ [true])
        (p.probe unhealthyThreshold healthyThreshold true) := by
  rcases p with ⟨healthy, fails, successes⟩
  have hrun := Runs.runLength_concat_self true rs
  cases healthy with
  | true =>
    have hnot : ¬Runs.Tripped unhealthyThreshold healthyThreshold rs := by
      rw [← h.verdict]
      simp
    constructor
    . rw [Runs.tripped_concat_true hu]
      simp [probe, evaluateActive, hnot]
    . intro _
      rw [Runs.runLength_concat_ne (by decide)]
      exact ⟨rfl, hu⟩
    . intro hhealthy
      simp [probe, evaluateActive] at hhealthy
  | false =>
    rcases h.successes rfl with ⟨hsuccesses, hlt⟩
    dsimp only at hsuccesses hlt
    have hadd : Word.wrappingAdd 32 successes 1 = successes + 1 := Word.wrappingAdd_eq (by omega)
    have hprobe : probe unhealthyThreshold healthyThreshold ⟨false, fails, successes⟩ true
        = ⟨decide (healthyThreshold ≤ successes + 1), 0, successes + 1⟩ := by
      rw [← hadd]
      rfl
    rw [hprobe]
    constructor
    . rw [Runs.tripped_concat_true hu, hrun, decide_eq_false_iff_not]
      simp only [h.verdict.mp rfl, true_and]
      omega
    . intro _
      rw [Runs.runLength_concat_ne (by decide)]
      exact ⟨rfl, hu⟩
    . intro hhealthy
      rw [decide_eq_false_iff_not] at hhealthy
      dsimp only
      omega

end Judges

end ActivePeer

namespace HealthOp

def probed (op : HealthOp) (upstream : String) (addr : SocketAddr) : Option Bool :=
  match op with
  | .recordProbe u _ a ok _ _ => if u = upstream ∧ a = addr then some ok else none
  | _ => none

def probedWith (op : HealthOp) (upstream : String) (addr : SocketAddr) : Option (Nat × Nat) :=
  match op with
  | .recordProbe u _ a _ unhealthyThreshold healthyThreshold =>
    if u = upstream ∧ a = addr then some (unhealthyThreshold, healthyThreshold) else none
  | _ => none

end HealthOp

namespace HealthRegistry

variable {upstream : String} {addr : SocketAddr} {unhealthyThreshold healthyThreshold : Nat}

def verdict (h : HealthRegistry) (upstream : String) (addr : SocketAddr) : ActivePeer :=
  (h.active.lookup (upstream, addr)).getD {}

theorem healthy_verdict (h : HealthRegistry)
    : (h.verdict upstream addr).healthy = h.isActiveHealthy upstream addr := by
  unfold verdict isActiveHealthy
  cases h.active.lookup (upstream, addr) <;> rfl

theorem verdict_congr {h h' : HealthRegistry} (hactive : h'.active = h.active)
    : h'.verdict upstream addr = h.verdict upstream addr := by
  unfold verdict
  rw [hactive]

theorem verdict_exec (h : HealthRegistry) {op : HealthOp}
    (hop : ∀ x ∈ op.probedWith upstream addr, x = (unhealthyThreshold, healthyThreshold))
    : (h.exec op).verdict upstream addr
        =
      match op.probed upstream addr with
      | some ok => (h.verdict upstream addr).probe unhealthyThreshold healthyThreshold ok
      | none => h.verdict upstream addr := by
  cases op with
  | recordProbe u idx a ok unhealthy healthy =>
    unfold exec verdict recordProbe
    dsimp only
    rw [active_modifyAt]
    by_cases heq : u = upstream ∧ a = addr
    . have hthresholds := hop (unhealthy, healthy) (by simp [HealthOp.probedWith, heq])
      cases hthresholds
      rcases heq with ⟨rfl, rfl⟩
      rw [AList.lookup_insert]
      simp [HealthOp.probed, ActivePeer.probe]
    . rw [AList.lookup_insert_ne]
      . simp [HealthOp.probed, heq]
      . intro hkey
        cases hkey
        exact heq ⟨rfl, rfl⟩
  | register u addrs => apply verdict_congr rfl
  | recordFailure u idx cfg nowMs => exact verdict_congr (active_recordFailure ..)
  | recordSuccess u idx nowMs => exact verdict_congr (active_modifyAt ..)
  | incInFlight u a => exact verdict_congr (active_modifyAddr ..)
  | decInFlight u a => exact verdict_congr (active_modifyAddr ..)

theorem judges_of_ops (hu : 1 ≤ unhealthyThreshold) (hh : 1 ≤ healthyThreshold)
    (hu' : unhealthyThreshold < 2 ^ 32) (hh' : healthyThreshold < 2 ^ 32) {ops : List HealthOp}
    (hops : ∀ op ∈ ops, ∀ x ∈ op.probedWith upstream addr, x = (unhealthyThreshold, healthyThreshold))
    : ActivePeer.Judges unhealthyThreshold healthyThreshold (ops.filterMap (·.probed upstream addr))
        ((ops.foldl exec new).verdict upstream addr) := by
  induction ops using List.reverseRecOn with
  | nil => exact .new hu
  | append_singleton ops op ih =>
    have hlast := hops op (by simp)
    have hinit := ih fun op hop => hops op (by simp [hop])
    rw [List.foldl_append, List.filterMap_append]
    change ActivePeer.Judges _ _ _ (((ops.foldl exec new).exec op).verdict upstream addr)
    rw [verdict_exec _ hlast]
    cases hprobed : op.probed upstream addr with
    | none => simpa [hprobed] using hinit
    | some ok =>
      have hsingle : [op].filterMap (·.probed upstream addr) = [ok] := by simp [hprobed]
      rw [hsingle]
      cases ok with
      | false => exact hinit.probe_false hu' hh
      | true => exact hinit.probe_true hu hh'

end HealthRegistry

theorem active_verdict_iff (upstream : String) (addr : SocketAddr)
    (unhealthyThreshold healthyThreshold : UInt32) (hu : 1 ≤ unhealthyThreshold.toNat)
    (hh : 1 ≤ healthyThreshold.toNat) (ops : List HealthOp)
    (hops : ∀ op ∈ ops, ∀ x ∈ op.probedWith upstream addr,
      x = (unhealthyThreshold.toNat, healthyThreshold.toNat))
    : (ops.foldl HealthRegistry.exec HealthRegistry.new).isActiveHealthy upstream addr = false
      ↔ ∃ pre post, ops.filterMap (·.probed upstream addr)
          = pre ++ List.replicate unhealthyThreshold.toNat false ++ post
        ∧ ¬List.replicate healthyThreshold.toNat true <:+: post := by
  rw [← HealthRegistry.healthy_verdict]
  apply (HealthRegistry.judges_of_ops hu hh unhealthyThreshold.toNat_lt healthyThreshold.toNat_lt
    hops).verdict

theorem active_verdict_iff_two_failures
    : let ops : List HealthOp := [.recordProbe "api" 0 peerA false 2 2, .register "api" [peerA],
        .recordProbe "api" 0 peerA false 2 2, .recordProbe "api" 0 peerA true 2 2]
      (ops.foldl HealthRegistry.exec HealthRegistry.new).isActiveHealthy "api" peerA = false := by
  intro ops
  rw [active_verdict_iff "api" peerA 2 2 (by decide) (by decide) ops (by decide)]
  exact ⟨[], [true], by decide, by decide⟩

end OpenRusty
