import Mathlib.Data.List.Dedup
import Mathlib.Data.List.Sort
import OpenRusty.Proxy.Health.Active
import OpenRusty.Proxy.Upstream

/-!
This module contains the status of the upstreams (`app.rs`). The number of the peers that the active plane
considers healthy is taken from its verdicts, not from the peers: it counts the verdicts on addresses that
are peers no longer, and misses the peers that have no verdict yet.
-/

namespace OpenRusty

namespace HealthRegistry

def activePeers (h : HealthRegistry) : List (String × String × Bool) :=
  (h.active.entries.map fun e => (e.1.1, e.1.2.toString, e.2.healthy)).insertionSort fun a b =>
    a.1 < b.1 ∨ a.1 = b.1 ∧ (a.2.1 < b.2.1 ∨ a.2.1 = b.2.1 ∧ a.2.2 ≤ b.2.2)

end HealthRegistry

structure UpstreamStatus where
  name : String
  peers : Nat
  healthy : Nat
  activeHealthy : Nat
  deriving DecidableEq, Repr

def upstreamStatus (h : HealthRegistry) (nowMs : Nat) (name : String) (up : Upstream) : UpstreamStatus where
  name := name
  peers := up.peers.length
  healthy := (h.healthyIndices name up.peers.length nowMs).length
  activeHealthy :=
    if up.health.active.isSome then
      (h.activePeers.filter fun x => x.1 == name && x.2.2).length
    else
      up.peers.length

namespace HealthRegistry

variable (h : HealthRegistry) (name : String) (addrs : List SocketAddr)

def probedHealthy (addr : SocketAddr) : Bool := (h.active.lookup (name, addr)).any ActivePeer.healthy

def departed : Nat :=
  (h.active.entries.filter fun e => (e.1.1 == name && e.2.healthy) && !addrs.contains e.1.2).length

def unprobed : Nat := addrs.countP fun addr => !(h.active.lookup (name, addr)).isSome

def repeated : Nat :=
  (addrs.filter (h.probedHealthy name)).length - (addrs.filter (h.probedHealthy name)).dedup.length

theorem length_activePeers
    : (h.activePeers.filter fun x => x.1 == name && x.2.2).length
        =
      (h.active.entries.filter fun e => e.1.1 == name && e.2.healthy).length := by
  unfold activePeers
  rw [((List.perm_insertionSort _ _).filter _).length_eq, List.filter_map, List.length_map]
  rfl

theorem length_current
    : (h.active.entries.filter fun e => (e.1.1 == name && e.2.healthy) && addrs.contains e.1.2).length
        =
      (addrs.filter (h.probedHealthy name)).dedup.length := by
  have hperm : ((h.active.entries.filter fun e =>
      (e.1.1 == name && e.2.healthy) && addrs.contains e.1.2).map fun e => e.1.2).Perm
      (addrs.filter (h.probedHealthy name)).dedup := by
    apply (List.perm_ext_iff_of_nodup _ (List.nodup_dedup _)).mpr
    . intro addr
      rw [List.mem_dedup, List.mem_filter, List.mem_map]
      constructor
      . rintro ⟨⟨⟨u, a⟩, peer⟩, hmem, rfl⟩
        rw [List.mem_filter] at hmem
        simp only [Bool.and_eq_true, beq_iff_eq, List.contains_iff_mem] at hmem
        obtain ⟨hentry, ⟨rfl, hhealthy⟩, haddr⟩ := hmem
        have hlook : h.active.lookup (u, a) = some peer := AList.mem_lookup_iff.mpr hentry
        refine ⟨haddr, ?_⟩
        unfold probedHealthy
        rw [hlook]
        exact hhealthy
      . rintro ⟨haddr, hhealthy⟩
        unfold probedHealthy at hhealthy
        cases hlook : h.active.lookup (name, addr) with
        | none =>
          rw [hlook] at hhealthy
          cases hhealthy
        | some peer =>
          rw [hlook, Option.any_some] at hhealthy
          refine ⟨⟨(name, addr), peer⟩, ?_, rfl⟩
          rw [List.mem_filter]
          refine ⟨AList.mem_lookup_iff.mp hlook, ?_⟩
          simp [hhealthy, haddr]
    . have hkeys : (h.active.entries.map Sigma.fst).Nodup := h.active.nodupKeys
      rw [List.Nodup, List.pairwise_map] at hkeys ⊢
      apply (hkeys.filter _).imp_of_mem
      rintro ⟨⟨u, a⟩, peer⟩ ⟨⟨u', a'⟩, peer'⟩ hmem hmem' hne heq
      simp only [List.mem_filter, Bool.and_eq_true, beq_iff_eq] at hmem hmem'
      apply hne
      obtain ⟨-, ⟨rfl, -⟩, -⟩ := hmem
      obtain ⟨-, ⟨rfl, -⟩, -⟩ := hmem'
      exact congrArg (Prod.mk _) heq
  rw [← hperm.length_eq, List.length_map]

theorem length_verdicts
    : (h.active.entries.filter fun e => e.1.1 == name && e.2.healthy).length
        =
      h.departed name addrs + (addrs.filter (h.probedHealthy name)).dedup.length := by
  rw [← length_current]
  unfold departed
  rw [List.length_eq_length_filter_add fun e => !addrs.contains e.1.2, List.filter_filter, List.filter_filter]
  simp only [Bool.not_not, Bool.and_comm]

theorem countP_isActiveHealthy
    : addrs.countP (h.isActiveHealthy name)
        =
      h.unprobed name addrs + (addrs.filter (h.probedHealthy name)).length := by
  unfold unprobed
  induction addrs with
  | nil => rfl
  | cons addr addrs ih =>
    have hcases : h.isActiveHealthy name addr
        = (!(h.active.lookup (name, addr)).isSome || h.probedHealthy name addr) := by
      unfold isActiveHealthy probedHealthy
      cases h.active.lookup (name, addr) with
      | none => rfl
      | some peer => simp
    rw [List.countP_cons, List.countP_cons, List.filter_cons, ih, hcases]
    unfold probedHealthy
    cases h.active.lookup (name, addr) with
    | none => simp; omega
    | some peer =>
      cases hpeer : peer.healthy with
      | true => simp [hpeer]; omega
      | false => simp [hpeer]

end HealthRegistry

theorem active_healthy_counts_iff (ops : List HealthOp) (nowMs : Nat) (name : String) (up : Upstream)
    : ((upstreamStatus (ops.foldl HealthRegistry.exec .new) nowMs name up).activeHealthy
        = up.addrs.countP ((ops.foldl HealthRegistry.exec .new).isActiveHealthy name)
        ∧ (upstreamStatus (ops.foldl HealthRegistry.exec .new) nowMs name up).activeHealthy ≤ up.peers.length)
        ↔
      if up.health.active.isSome then
        (ops.foldl HealthRegistry.exec .new).departed name up.addrs
          = (ops.foldl HealthRegistry.exec .new).unprobed name up.addrs
            + (ops.foldl HealthRegistry.exec .new).repeated name up.addrs
      else
        ∀ addr ∈ up.addrs, (ops.foldl HealthRegistry.exec .new).isActiveHealthy name addr := by
  generalize ops.foldl HealthRegistry.exec .new = h
  have hlen : up.addrs.length = up.peers.length := List.length_map ..
  have hle := List.countP_le_length (p := h.isActiveHealthy name) (l := up.addrs)
  unfold upstreamStatus
  dsimp only
  split
  . have hdedup := (List.dedup_sublist (up.addrs.filter (h.probedHealthy name))).length_le
    rw [h.length_activePeers, h.length_verdicts name up.addrs]
    rw [h.countP_isActiveHealthy] at hle ⊢
    unfold HealthRegistry.repeated
    omega
  . rw [← List.countP_eq_length, hlen]
    omega

theorem active_healthy_exceeds_peers
    : ∃ up : Upstream, up.addrs = [peerB] ∧ up.health.active.isSome
        ∧ ¬(upstreamStatus
            ([HealthOp.register "u" [peerA], .recordProbe "u" 0 peerA true 2 2, .register "u" [peerB],
              .recordProbe "u" 0 peerB true 2 2].foldl HealthRegistry.exec .new) 0 "u" up).activeHealthy
          ≤ up.peers.length := by
  refine ⟨.fromConfig { name := "u", peers := [{ addr := peerB }], health := { active := some {} } }, rfl, rfl, ?_⟩
  decide +kernel

end OpenRusty
