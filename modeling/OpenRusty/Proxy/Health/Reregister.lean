import Mathlib.Data.List.Induction
import Mathlib.Data.List.Infix
import OpenRusty.Proxy.Health.Active
import OpenRusty.Proxy.Health.InFlight
import OpenRusty.Proxy.Upstream
import OpenRusty.Core.Validate

/-!
This module contains what a peer takes along through a reload. The state of an address is in its first
slot, that is where the gauge is moved and read, but a reload hands on the state of its last one: the
state survives exactly as long as the two agree whenever a list is registered.
-/

namespace OpenRusty

namespace HealthRegistry

def peer (h : HealthRegistry) (upstream : String) (addr : SocketAddr) : Option PeerHealth :=
  (h.firstPos upstream addr).bind fun i => (h.slot upstream i).map Prod.snd

def lastPeer (h : HealthRegistry) (upstream : String) (addr : SocketAddr) : Option PeerHealth :=
  (h.upstreams.lookup upstream).bind fun slots => slots.previous addr

def gauge (h : HealthRegistry) (upstream : String) (addr : SocketAddr) : Nat :=
  (h.peer upstream addr).elim 0 PeerHealth.inFlight

def passiveState (h : HealthRegistry) (upstream : String) (addr : SocketAddr)
    : Option (PeerCounters × Nat) :=
  (h.peer upstream addr).map fun p => (p.counters, p.downUntilMs)

def SlotsAgree (h : HealthRegistry) (upstream : String) (addr : SocketAddr) : Prop :=
  (h.peer upstream addr).map (fun p => (p.inFlight, p.counters, p.downUntilMs))
    = (h.lastPeer upstream addr).map fun p => (p.inFlight, p.counters, p.downUntilMs)

instance (h : HealthRegistry) (upstream : String) (addr : SocketAddr)
    : Decidable (h.SlotsAgree upstream addr) :=
  inferInstanceAs (Decidable (_ = _))

variable {h : HealthRegistry} {upstream : String} {addr : SocketAddr}

theorem exists_firstPos (hmem : addr ∈ h.registered upstream)
    : ∃ i p, h.firstPos upstream addr = some i ∧ h.slot upstream i = some (addr, p) := by
  have hsome : (h.firstPos upstream addr).isSome = true := by
    unfold firstPos
    rw [List.findIdx?_isSome, List.any_eq_true]
    exact ⟨addr, hmem, by simp⟩
  rcases Option.isSome_iff_exists.mp hsome with ⟨i, hi⟩
  have hslot := map_fst_slot h upstream i
  rw [getElem?_of_firstPos hi, Option.map_eq_some_iff] at hslot
  rcases hslot with ⟨⟨a, p⟩, hslot, rfl⟩
  exact ⟨i, p, hi, hslot⟩

theorem exists_peer (hmem : addr ∈ h.registered upstream) : ∃ p, h.peer upstream addr = some p := by
  rcases exists_firstPos hmem with ⟨i, p, hi, hslot⟩
  exact ⟨p, by simp [peer, hi, hslot]⟩

theorem exists_lastPeer (hmem : addr ∈ h.registered upstream)
    : ∃ p, h.lastPeer upstream addr = some p := by
  rcases exists_firstPos hmem with ⟨i, p, -, hslot⟩
  rcases slot_eq_some.mp hslot with ⟨slots, hslots, ha, hp⟩
  unfold lastPeer PeerSlots.previous
  rw [hslots, Option.bind_some, ← Option.isSome_iff_exists, List.lookup_isSome_iff]
  refine ⟨(addr, p), ?_, by simp⟩
  rw [List.mem_reverse]
  apply List.mem_of_getElem?
  exact List.getElem?_zip_eq_some.mpr ⟨ha, hp⟩

theorem inFlights_eq (h : HealthRegistry) (upstream : String) (addrs : List SocketAddr)
    : h.inFlights upstream addrs = addrs.map fun a => h.gauge upstream a := by
  unfold inFlights gauge peer firstPos registered slot
  cases h.upstreams.lookup upstream with
  | none => simp
  | some slots =>
    have hlen := slots.length_eq
    apply List.map_congr_left
    intro a _
    simp only [Option.elim_some, Option.bind_some]
    unfold PeerSlots.addrSlot
    cases slots.addrs.findIdx? fun b => b == a with
    | none => rfl
    | some i =>
      rw [Option.elim_some, Option.bind_some, ← List.getElem?_map, List.map_snd_zip (by omega)]

theorem peer_congr {h' : HealthRegistry} (hreg : h'.registered upstream = h.registered upstream)
    (hslot : ∀ i, h.firstPos upstream addr = some i → h'.slot upstream i = h.slot upstream i)
    : h'.peer upstream addr = h.peer upstream addr := by
  unfold peer
  rw [firstPos_congr hreg]
  cases hpos : h.firstPos upstream addr with
  | none => rfl
  | some i => rw [Option.bind_some, Option.bind_some, hslot i hpos]

theorem gauge_modifyAt (h : HealthRegistry) (upstream : String) (addr : SocketAddr) (v : String) (idx : Nat)
    {f : PeerHealth → PeerHealth} (hf : ∀ p, (f p).inFlight = p.inFlight)
    : (h.modifyAt v idx f).gauge upstream addr = h.gauge upstream addr := by
  unfold gauge peer
  rw [firstPos_congr (registered_modifyAt ..)]
  cases h.firstPos upstream addr with
  | none => rfl
  | some i =>
    rw [Option.bind_some, Option.bind_some, slot_modifyAt]
    split
    . cases h.slot upstream i with
      | none => rfl
      | some x => exact hf x.2
    . rfl

theorem peer_modifyAddr (h : HealthRegistry) (upstream : String) (addr : SocketAddr)
    (f : PeerHealth → PeerHealth)
    : (h.modifyAddr upstream addr f).peer upstream addr = (h.peer upstream addr).map f := by
  unfold peer
  rw [firstPos_congr (registered_modifyAddr ..)]
  cases hpos : h.firstPos upstream addr with
  | none => rfl
  | some i =>
    rw [Option.bind_some, Option.bind_some, slot_modifyAddr, if_pos ⟨rfl, hpos⟩, Option.map_map,
      Option.map_map]
    rfl

theorem peer_modifyAddr_ne (h : HealthRegistry) {v : String} {a : SocketAddr}
    (hne : (v, a) ≠ (upstream, addr)) (f : PeerHealth → PeerHealth)
    : (h.modifyAddr v a f).peer upstream addr = h.peer upstream addr := by
  apply peer_congr (registered_modifyAddr ..)
  intro i hi
  rw [slot_modifyAddr, if_neg]
  rintro ⟨rfl, hi'⟩
  have ha := getElem?_of_firstPos hi
  rw [getElem?_of_firstPos hi'] at ha
  cases ha
  exact hne rfl

theorem peer_register {addrs : List SocketAddr} (hmem : addr ∈ addrs)
    : (h.register upstream addrs).peer upstream addr = some (h.inherit upstream addr) := by
  have hreg : addr ∈ (h.register upstream addrs).registered upstream := by
    rw [registered_register, if_pos rfl]
    exact hmem
  rcases exists_firstPos hreg with ⟨i, p, hi, hslot⟩
  have hslot' := hslot
  rw [slot_register, if_pos rfl, Option.map_eq_some_iff] at hslot'
  rcases hslot' with ⟨a, -, heq⟩
  cases heq
  simp [peer, hi, hslot]

theorem peer_register_ne {v : String} (hne : upstream ≠ v) (addrs : List SocketAddr)
    : (h.register v addrs).peer upstream addr = h.peer upstream addr := by
  apply peer_congr
  . rw [registered_register, if_neg hne]
  . intro i _
    rw [slot_register, if_neg hne]

theorem agree_iff_register {addrs : List SocketAddr} (hmem : addr ∈ addrs)
    (hreg : addr ∈ h.registered upstream)
    : h.SlotsAgree upstream addr
        ↔
      (h.register upstream addrs).gauge upstream addr = h.gauge upstream addr
        ∧ (h.register upstream addrs).passiveState upstream addr = h.passiveState upstream addr := by
  rcases exists_peer hreg with ⟨p, hp⟩
  rcases exists_lastPeer hreg with ⟨q, hq⟩
  have hinherit : h.inherit upstream addr = { q with activeOk := h.isActiveHealthy upstream addr } := by
    unfold lastPeer at hq
    unfold inherit
    rw [hq]
    rfl
  unfold SlotsAgree gauge passiveState
  rw [peer_register hmem, hinherit, hp, hq]
  simp only [Option.map_some, Option.elim_some, Option.some_inj, Prod.mk.injEq]
  constructor
  . rintro ⟨hflight, hcounters, hdown⟩
    exact ⟨hflight.symm, hcounters.symm, hdown.symm⟩
  . rintro ⟨hflight, hcounters, hdown⟩
    exact ⟨hflight.symm, hcounters.symm, hdown.symm⟩

theorem gauge_of_peer {h' : HealthRegistry} (hpeer : h'.peer upstream addr = h.peer upstream addr)
    : h'.gauge upstream addr = h.gauge upstream addr := by
  unfold gauge
  rw [hpeer]

theorem gauge_exec (hreg : addr ∈ h.registered upstream) {op : HealthOp} (hop : op.registers upstream = none)
    : (h.exec op).gauge upstream addr
        =
      h.gauge upstream addr + (op.acquires upstream).count addr - (op.releases upstream).count addr := by
  rcases exists_peer hreg with ⟨p, hp⟩
  cases op with
  | register u addrs =>
    simp only [HealthOp.registers] at hop
    split at hop
    . cases hop
    . next hne => exact gauge_of_peer (peer_register_ne hne addrs)
  | recordFailure u idx cfg nowMs =>
    change (h.recordFailure u idx cfg nowMs).gauge upstream addr = _
    unfold recordFailure
    split
    . rfl
    . apply gauge_modifyAt
      apply inFlight_recordFailure
  | recordSuccess u idx nowMs =>
    apply gauge_modifyAt
    intro p
    rfl
  | recordProbe u idx a ok unhealthyThreshold healthyThreshold =>
    apply gauge_modifyAt { h with active := _ }
    intro p
    rfl
  | incInFlight u a =>
    by_cases heq : (u, a) = (upstream, addr)
    . cases heq
      unfold gauge
      change ((h.modifyAddr upstream addr PeerHealth.incInFlight).peer upstream addr).elim 0
        PeerHealth.inFlight = _
      rw [peer_modifyAddr, hp]
      simp [HealthOp.acquires, HealthOp.releases, PeerHealth.incInFlight]
    . have hcount : ((HealthOp.incInFlight u a).acquires upstream).count addr = 0 := by
        simp only [HealthOp.acquires]
        grind
      rw [hcount]
      exact gauge_of_peer (peer_modifyAddr_ne h heq _)
  | decInFlight u a =>
    by_cases heq : (u, a) = (upstream, addr)
    . cases heq
      unfold gauge
      change ((h.modifyAddr upstream addr PeerHealth.decInFlight).peer upstream addr).elim 0
        PeerHealth.inFlight = _
      rw [peer_modifyAddr, hp]
      simp [HealthOp.acquires, HealthOp.releases, PeerHealth.decInFlight]
    . have hcount : ((HealthOp.decInFlight u a).releases upstream).count addr = 0 := by
        simp only [HealthOp.releases]
        grind
      rw [hcount]
      exact gauge_of_peer (peer_modifyAddr_ne h heq _)

end HealthRegistry

namespace HealthOp

def acquired (ops : List HealthOp) (upstream : String) (addr : SocketAddr) : Nat :=
  (ops.flatMap (·.acquires upstream)).count addr

def released (ops : List HealthOp) (upstream : String) (addr : SocketAddr) : Nat :=
  (ops.flatMap (·.releases upstream)).count addr

end HealthOp

namespace HealthRegistry

variable {h : HealthRegistry} {upstream : String} {addr : SocketAddr}

theorem registered_foldl (hreg : addr ∈ h.registered upstream) {ops : List HealthOp}
    (hops : ∀ op ∈ ops, ∀ addrs ∈ op.registers upstream, addr ∈ addrs)
    : addr ∈ (ops.foldl exec h).registered upstream := by
  induction ops using List.reverseRecOn with
  | nil => exact hreg
  | append_singleton ops op ih =>
    rw [List.foldl_append]
    change addr ∈ ((ops.foldl exec h).exec op).registered upstream
    rw [registered_exec]
    cases hop : op.registers upstream with
    | none =>
      apply ih
      intro op' hop'
      exact hops op' (by simp [hop'])
    | some addrs => exact hops op (by simp) addrs hop

theorem eq_register {op : HealthOp} {addrs : List SocketAddr} (hop : op.registers upstream = some addrs)
    : op = .register upstream addrs := by
  cases op with
  | register u l =>
    simp only [HealthOp.registers] at hop
    split at hop
    . next heq =>
      cases hop
      rw [heq]
    . cases hop
  | _ => cases hop

theorem gauge_foldl (hreg : addr ∈ h.registered upstream) {ops : List HealthOp}
    (hops : ∀ op ∈ ops, ∀ addrs ∈ op.registers upstream, addr ∈ addrs)
    (hbalance : ∀ pre, pre <+: ops →
      HealthOp.released pre upstream addr ≤ h.gauge upstream addr + HealthOp.acquired pre upstream addr)
    (hagree : ∀ pre addrs post, ops = pre ++ .register upstream addrs :: post →
      (pre.foldl exec h).SlotsAgree upstream addr)
    : (ops.foldl exec h).gauge upstream addr + HealthOp.released ops upstream addr
      = h.gauge upstream addr + HealthOp.acquired ops upstream addr := by
  induction ops using List.reverseRecOn with
  | nil => rfl
  | append_singleton ops op ih =>
    have hops' : ∀ op ∈ ops, ∀ addrs ∈ op.registers upstream, addr ∈ addrs :=
      fun op' hop' => hops op' (by simp [hop'])
    have hbefore := ih hops'
      (fun pre hpre => hbalance pre (hpre.trans (List.prefix_append ..)))
      (fun pre addrs post hsplit => hagree pre addrs (post ++ [op]) (by simp [hsplit]))
    have hreg' := registered_foldl hreg hops'
    have hlast := hbalance (ops ++ [op]) (List.prefix_refl _)
    have hacquired : HealthOp.acquired (ops ++ [op]) upstream addr
        = HealthOp.acquired ops upstream addr + (op.acquires upstream).count addr := by
      simp [HealthOp.acquired]
    have hreleased : HealthOp.released (ops ++ [op]) upstream addr
        = HealthOp.released ops upstream addr + (op.releases upstream).count addr := by
      simp [HealthOp.released]
    rw [hacquired, hreleased] at hlast ⊢
    rw [List.foldl_append]
    change ((ops.foldl exec h).exec op).gauge upstream addr + _ = _
    cases hop : op.registers upstream with
    | none =>
      rw [gauge_exec hreg' hop]
      omega
    -- The slot is copied, which is the one step that can lose what the gauge counts.
    | some addrs =>
      have hmem := hops op (by simp) addrs hop
      have heq := eq_register hop
      subst heq
      have hkept := ((agree_iff_register hmem hreg').mp (hagree ops addrs [] rfl)).1
      change ((ops.foldl exec h).register upstream addrs).gauge upstream addr + _ = _
      rw [hkept]
      exact hbefore

end HealthRegistry

open HealthRegistry

theorem peer_survives_iff (h : HealthRegistry) (upstream : String) (addr : SocketAddr)
    (hreg : addr ∈ h.registered upstream) (ops : List HealthOp)
    (hops : ∀ op ∈ ops, ∀ addrs ∈ op.registers upstream, addr ∈ addrs)
    (hbalance : ∀ pre, pre <+: ops →
      HealthOp.released pre upstream addr ≤ h.gauge upstream addr + HealthOp.acquired pre upstream addr)
    : (∀ pre post, ops = pre ++ post →
        (∀ (addrs : List SocketAddr) (i : Nat), addrs[i]? = some addr →
          ((pre.foldl exec h).inFlights upstream addrs)[i]?
            = some (h.gauge upstream addr + HealthOp.acquired pre upstream addr
              - HealthOp.released pre upstream addr))
        ∧ ∀ addrs rest, post = .register upstream addrs :: rest →
          ((pre.foldl exec h).register upstream addrs).passiveState upstream addr
            = (pre.foldl exec h).passiveState upstream addr)
      ↔ ∀ pre addrs post, ops = pre ++ .register upstream addrs :: post →
        (pre.foldl exec h).SlotsAgree upstream addr := by
  -- A list of the address alone says as much about its slot as all the lists that have it.
  have hgauge (pre : List HealthOp)
      : (∀ (addrs : List SocketAddr) (i : Nat), addrs[i]? = some addr →
          ((pre.foldl exec h).inFlights upstream addrs)[i]?
            = some (h.gauge upstream addr + HealthOp.acquired pre upstream addr
              - HealthOp.released pre upstream addr))
        ↔ (pre.foldl exec h).gauge upstream addr = h.gauge upstream addr
            + HealthOp.acquired pre upstream addr - HealthOp.released pre upstream addr := by
    simp only [inFlights_eq, List.getElem?_map]
    constructor
    . intro hall
      simpa using hall [addr] 0 rfl
    . intro heq addrs i hi
      rw [hi, Option.map_some, heq]
  constructor
  . intro hkept pre addrs post hsplit
    have hpre : pre ++ [.register upstream addrs] <+: ops := by
      rw [hsplit]
      exact ⟨post, by simp⟩
    have hmem : addr ∈ addrs := hops (.register upstream addrs) (by simp [hsplit]) addrs
      (by simp [HealthOp.registers])
    have hreg' : addr ∈ (pre.foldl exec h).registered upstream := by
      apply registered_foldl hreg
      intro op hop
      exact hops op (by simp [hsplit, hop])
    rw [agree_iff_register hmem hreg']
    constructor
    . have hbefore := (hgauge pre).mp (hkept pre _ hsplit).1
      have hafter := (hgauge (pre ++ [.register upstream addrs])).mp
        (hkept (pre ++ [.register upstream addrs]) post (by simp [hsplit])).1
      rw [List.foldl_append] at hafter
      change ((pre.foldl exec h).register upstream addrs).gauge upstream addr = _ at hafter
      rw [hafter, hbefore]
      simp [HealthOp.acquired, HealthOp.released, HealthOp.acquires, HealthOp.releases]
    . exact (hkept pre _ hsplit).2 addrs post rfl
  . intro hagree pre post hsplit
    have hops' : ∀ op ∈ pre, ∀ addrs ∈ op.registers upstream, addr ∈ addrs :=
      fun op hop => hops op (by simp [hsplit, hop])
    constructor
    . rw [hgauge]
      have hsum := gauge_foldl hreg hops'
        (fun pre' hpre => hbalance pre' (hpre.trans ⟨post, hsplit.symm⟩))
        (fun pre' addrs post' hpre => hagree pre' addrs (post' ++ post) (by simp [hsplit, hpre]))
      omega
    . intro addrs rest hpost
      subst hpost
      have hmem : addr ∈ addrs := hops (.register upstream addrs) (by simp [hsplit]) addrs
        (by simp [HealthOp.registers])
      exact ((agree_iff_register hmem (registered_foldl hreg hops')).mp (hagree pre addrs rest hsplit)).2

theorem peer_survives_reorder
    : let h := HealthRegistry.new.register "api" [peerA, peerB]
      let ops : List HealthOp := [.incInFlight "api" peerA, .recordFailure "api" 0 {} 20000,
        .incInFlight "api" peerA, .register "api" [peerB, peerA], .decInFlight "api" peerA]
      (ops.foldl exec h).inFlights "api" [peerB, peerA] = [0, 1]
        ∧ ∀ pre post, ops = pre ++ post →
          (∀ (addrs : List SocketAddr) (i : Nat), addrs[i]? = some peerA →
            ((pre.foldl exec h).inFlights "api" addrs)[i]?
              = some (h.gauge "api" peerA + HealthOp.acquired pre "api" peerA
                - HealthOp.released pre "api" peerA))
          ∧ ∀ addrs rest, post = .register "api" addrs :: rest →
            ((pre.foldl exec h).register "api" addrs).passiveState "api" peerA
              = (pre.foldl exec h).passiveState "api" peerA := by
  intro h ops
  refine ⟨by decide, ?_⟩
  have hbalance : ∀ pre ∈ ops.inits,
      HealthOp.released pre "api" peerA ≤ h.gauge "api" peerA + HealthOp.acquired pre "api" peerA := by
    decide
  have hagree : ∀ pre ∈ ops.inits, (pre.foldl exec h).SlotsAgree "api" peerA := by decide
  apply (peer_survives_iff h "api" peerA (by decide) ops (by decide)
    (fun pre hpre => hbalance pre ((List.mem_inits pre ops).mpr hpre))).mpr
  intro pre addrs post hsplit
  exact hagree pre ((List.mem_inits pre ops).mpr ⟨_, hsplit.symm⟩)

theorem peer_lost_by_repeated_address
    : let cfg : UpstreamConfig := { name := "api", peers := [⟨peerA, 1⟩, ⟨peerA, 1⟩] }
      let h := HealthRegistry.new.register "api" (Upstream.fromConfig cfg).addrs
      let ops : List HealthOp := [.incInFlight "api" peerA, .register "api" (Upstream.fromConfig cfg).addrs]
      Config.validate { upstreams := [cfg] } = .ok ()
        ∧ h.inFlights "api" [peerA] = [0]
        ∧ HealthOp.acquired ops "api" peerA = 1 ∧ HealthOp.released ops "api" peerA = 0
        ∧ (ops.foldl exec h).inFlights "api" [peerA] = [0] := by
  decide

end OpenRusty
