import OpenRusty.Proxy.Health.Basic

/-!
This module contains the theory of the health registry by slots: `slot h upstream i` is the address
and the state of the peer that is registered at the position `i` of an upstream. Every call on the
registry is described by what it does to the slots and to the active plane.
-/

namespace OpenRusty

namespace HealthRegistry

def slot (h : HealthRegistry) (upstream : String) (i : Nat) : Option (SocketAddr × PeerHealth) :=
  (h.upstreams.lookup upstream).bind fun slots => (slots.addrs.zip slots.peers)[i]?

def registered (h : HealthRegistry) (upstream : String) : List SocketAddr :=
  (h.upstreams.lookup upstream).elim [] PeerSlots.addrs

def firstPos (h : HealthRegistry) (upstream : String) (addr : SocketAddr) : Option Nat :=
  (h.registered upstream).findIdx? fun a => a == addr

@[simp]
theorem slot_new (upstream : String) (i : Nat) : new.slot upstream i = none := by
  rfl

theorem slot_eq_some {h : HealthRegistry} {upstream : String} {i : Nat} {a : SocketAddr}
    {p : PeerHealth}
    : h.slot upstream i = some (a, p)
        ↔
      ∃ slots, h.upstreams.lookup upstream = some slots ∧ slots.addrs[i]? = some a
        ∧ slots.peers[i]? = some p := by
  simp only [slot, Option.bind_eq_some_iff, List.getElem?_zip_eq_some]

theorem map_fst_slot (h : HealthRegistry) (upstream : String) (i : Nat)
    : (h.slot upstream i).map Prod.fst = (h.registered upstream)[i]? := by
  unfold slot registered
  cases h.upstreams.lookup upstream with
  | none => simp
  | some slots =>
    have := slots.length_eq
    simp only [Option.bind_some, Option.elim_some]
    rw [← List.getElem?_map, List.map_fst_zip (by omega)]

theorem isHealthy_of_lookup {h : HealthRegistry} {upstream : String} {slots : PeerSlots}
    (hslots : h.upstreams.lookup upstream = some slots) (idx nowMs : Nat)
    : h.isHealthy upstream idx nowMs = slots.peers[idx]?.all fun p => p.isUp nowMs := by
  unfold isHealthy lookup
  rw [hslots]
  by_cases hidx : idx < slots.peers.length
  . simp [Option.filter, hidx]
  . simp [Option.filter, hidx]

theorem isHealthy_eq (h : HealthRegistry) (upstream : String) (idx nowMs : Nat)
    : h.isHealthy upstream idx nowMs = (h.slot upstream idx).all fun x => x.2.isUp nowMs := by
  cases hslots : h.upstreams.lookup upstream with
  | none => simp [isHealthy, lookup, slot, hslots]
  | some slots =>
    have hlen := slots.length_eq
    have hzip : (slots.addrs.zip slots.peers)[idx]?.map Prod.snd = slots.peers[idx]? := by
      rw [← List.getElem?_map, List.map_snd_zip (by omega)]
    rw [isHealthy_of_lookup hslots]
    simp only [slot, hslots, Option.bind_some]
    rw [← hzip, Option.all_map]

theorem healthyIndices_eq (h : HealthRegistry) (upstream : String) (peerCount nowMs : Nat)
    : h.healthyIndices upstream peerCount nowMs
        =
      (List.range peerCount).filter fun i => h.isHealthy upstream i nowMs := by
  unfold healthyIndices
  split
  . next slots hslots =>
    simp only [isHealthy_of_lookup hslots]
  . next hslots =>
    simp [isHealthy, lookup, hslots]

section modify

variable (h : HealthRegistry) (upstream : String) (f : PeerHealth → PeerHealth)

theorem slot_insert_modify {slots : PeerSlots} (hslots : h.upstreams.lookup upstream = some slots)
    (idx : Nat) (v : String) (i : Nat)
    : slot { h with upstreams := h.upstreams.insert upstream (slots.modify idx f) } v i
        =
      if v = upstream ∧ i = idx then
        (h.slot v i).map fun x => (x.1, f x.2)
      else
        h.slot v i := by
  unfold slot
  dsimp
  by_cases hv : v = upstream
  . subst hv
    rw [AList.lookup_insert, hslots]
    simp only [Option.bind_some, PeerSlots.modify, true_and]
    apply Option.ext
    rintro ⟨a, p⟩
    rw [List.getElem?_zip_eq_some, List.getElem?_modify]
    split
    . next hi =>
      subst hi
      simp only [↓reduceIte, Option.map_eq_map, Option.map_eq_some_iff, List.getElem?_zip_eq_some,
        Prod.exists, Prod.mk.injEq]
      constructor
      . rintro ⟨ha, p, hp, rfl⟩
        exact ⟨a, p, ⟨ha, hp⟩, rfl, rfl⟩
      . rintro ⟨a, p, ⟨ha, hp⟩, rfl, rfl⟩
        exact ⟨ha, p, hp, rfl⟩
    . next hi =>
      rw [if_neg (fun heq => hi heq.symm), List.getElem?_zip_eq_some]
      simp
  . rw [AList.lookup_insert_ne hv, if_neg (fun heq => hv heq.1)]

theorem slot_modifyAt (idx : Nat) (v : String) (i : Nat)
    : (h.modifyAt upstream idx f).slot v i
        =
      if v = upstream ∧ i = idx then
        (h.slot v i).map fun x => (x.1, f x.2)
      else
        h.slot v i := by
  unfold modifyAt
  split
  . next slots hlook =>
    apply slot_insert_modify
    exact (Option.filter_eq_some_iff.mp hlook).1
  . next hlook =>
    split
    . next heq =>
      obtain ⟨rfl, rfl⟩ := heq
      have hnone : h.slot v i = none := by
        rw [Option.eq_none_iff_forall_ne_some]
        rintro ⟨a, p⟩ hslot
        obtain ⟨slots, hslots, ha, hp⟩ := slot_eq_some.mp hslot
        have hlt : i < slots.peers.length := (List.getElem?_eq_some_iff.mp hp).1
        simp [lookup, hslots, Option.filter, hlt] at hlook
      rw [hnone]
      rfl
    . rfl

theorem slot_modifyAddr (addr : SocketAddr) (v : String) (i : Nat)
    : (h.modifyAddr upstream addr f).slot v i
        =
      if v = upstream ∧ h.firstPos upstream addr = some i then
        (h.slot v i).map fun x => (x.1, f x.2)
      else
        h.slot v i := by
  unfold modifyAddr firstPos registered
  split
  . next slots hslots =>
    rw [hslots, Option.elim_some]
    change _ = if v = upstream ∧ slots.addrSlot addr = some i then _ else _
    split
    . next pos hpos =>
      rw [slot_insert_modify h upstream f hslots, hpos]
      simp only [Option.some_inj, eq_comm]
    . next hpos => simp [hpos]
  . next hslots =>
    rw [hslots]
    simp

@[simp]
theorem active_modifyAt (idx : Nat) : (h.modifyAt upstream idx f).active = h.active := by
  unfold modifyAt
  split
  . rfl
  . rfl

@[simp]
theorem active_modifyAddr (addr : SocketAddr)
    : (h.modifyAddr upstream addr f).active = h.active := by
  unfold modifyAddr
  split
  . split
    . rfl
    . rfl
  . rfl

end modify

@[simp]
theorem active_register (h : HealthRegistry) (upstream : String) (addrs : List SocketAddr)
    : (h.register upstream addrs).active = h.active := by
  rfl

theorem slot_register (h : HealthRegistry) (upstream : String) (addrs : List SocketAddr) (v : String)
    (i : Nat)
    : (h.register upstream addrs).slot v i
        =
      if v = upstream then
        addrs[i]?.map fun a => (a, h.inherit upstream a)
      else
        h.slot v i := by
  unfold slot register
  dsimp
  split
  . next hv =>
    subst hv
    rw [AList.lookup_insert]
    simp only [Option.bind_some]
    apply Option.ext
    rintro ⟨a, p⟩
    rw [List.getElem?_zip_eq_some, List.getElem?_map]
    cases addrs[i]? with
    | none => simp
    | some b =>
      simp only [Option.some_inj, Option.map_some, Prod.mk.injEq]
  . next hv =>
    rw [AList.lookup_insert_ne hv]

@[simp]
theorem activeOk_inherit (h : HealthRegistry) (upstream : String) (addr : SocketAddr)
    : (h.inherit upstream addr).activeOk = h.isActiveHealthy upstream addr := by
  rfl

theorem isActiveHealthy_congr {h h' : HealthRegistry} (hactive : h'.active = h.active)
    (upstream : String) (addr : SocketAddr)
    : h'.isActiveHealthy upstream addr = h.isActiveHealthy upstream addr := by
  unfold isActiveHealthy
  rw [hactive]

theorem isActiveHealthy_recordProbe (h : HealthRegistry) (upstream : String) (idx : Nat)
    (addr : SocketAddr) (ok : Bool) (unhealthyThreshold healthyThreshold : Nat) (v : String)
    (a : SocketAddr)
    : (h.recordProbe upstream idx addr ok unhealthyThreshold healthyThreshold).2.isActiveHealthy v a
        =
      if v = upstream ∧ a = addr then
        (h.recordProbe upstream idx addr ok unhealthyThreshold healthyThreshold).1
      else
        h.isActiveHealthy v a := by
  unfold recordProbe isActiveHealthy
  dsimp
  rw [active_modifyAt]
  split
  . next heq =>
    obtain ⟨rfl, rfl⟩ := heq
    rw [AList.lookup_insert]
    rfl
  . next heq =>
    rw [AList.lookup_insert_ne]
    simpa using heq

theorem slot_recordProbe (h : HealthRegistry) (upstream : String) (idx : Nat)
    (addr : SocketAddr) (ok : Bool) (unhealthyThreshold healthyThreshold : Nat) (v : String) (i : Nat)
    : (h.recordProbe upstream idx addr ok unhealthyThreshold healthyThreshold).2.slot v i
        =
      if v = upstream ∧ i = idx then
        (h.slot v i).map fun x => (x.1, { x.2 with
          activeOk := (h.recordProbe upstream idx addr ok unhealthyThreshold healthyThreshold).1 })
      else
        h.slot v i := by
  apply slot_modifyAt

theorem slot_registered {h : HealthRegistry} {upstream : String} {i : Nat} {a : SocketAddr}
    {p : PeerHealth} (hslot : h.slot upstream i = some (a, p))
    : (h.registered upstream)[i]? = some a := by
  rw [← map_fst_slot, hslot]
  rfl

theorem registered_congr {h h' : HealthRegistry} {upstream : String}
    (hslot : ∀ i, (h'.slot upstream i).map Prod.fst = (h.slot upstream i).map Prod.fst)
    : h'.registered upstream = h.registered upstream := by
  apply List.ext_getElem?
  intro i
  rw [← map_fst_slot, ← map_fst_slot, hslot]

theorem registered_modifyAt (h : HealthRegistry) (upstream : String) (f : PeerHealth → PeerHealth)
    (idx : Nat) (v : String)
    : (h.modifyAt upstream idx f).registered v = h.registered v := by
  apply registered_congr
  intro i
  rw [slot_modifyAt]
  split
  . rw [Option.map_map]
    rfl
  . rfl

theorem registered_modifyAddr (h : HealthRegistry) (upstream : String) (f : PeerHealth → PeerHealth)
    (addr : SocketAddr) (v : String)
    : (h.modifyAddr upstream addr f).registered v = h.registered v := by
  apply registered_congr
  intro i
  rw [slot_modifyAddr]
  split
  . rw [Option.map_map]
    rfl
  . rfl

theorem registered_register (h : HealthRegistry) (upstream : String) (addrs : List SocketAddr)
    (v : String)
    : (h.register upstream addrs).registered v
        =
      if v = upstream then addrs else h.registered v := by
  unfold registered register
  dsimp
  split
  . next hv =>
    subst hv
    rw [AList.lookup_insert]
    rfl
  . next hv =>
    rw [AList.lookup_insert_ne hv]

theorem registered_recordProbe (h : HealthRegistry) (upstream : String) (idx : Nat)
    (addr : SocketAddr) (ok : Bool) (unhealthyThreshold healthyThreshold : Nat) (v : String)
    : (h.recordProbe upstream idx addr ok unhealthyThreshold healthyThreshold).2.registered v
        =
      h.registered v := by
  apply registered_modifyAt

end HealthRegistry

def HealthOp.registers (op : HealthOp) (v : String) : Option (List SocketAddr) :=
  match op with
  | .register upstream addrs => if v = upstream then some addrs else none
  | _ => none

theorem HealthRegistry.registered_exec (h : HealthRegistry) (op : HealthOp) (v : String)
    : (h.exec op).registered v = (op.registers v).getD (h.registered v) := by
  cases op with
  | register upstream addrs =>
    change (h.register upstream addrs).registered v = _
    rw [registered_register]
    simp only [HealthOp.registers]
    split
    . rfl
    . rfl
  | recordFailure upstream idx cfg nowMs =>
    change (h.recordFailure upstream idx cfg nowMs).registered v = _
    unfold recordFailure
    split
    . rfl
    . apply registered_modifyAt
  | recordSuccess upstream idx nowMs => apply registered_modifyAt
  | recordProbe upstream idx addr ok unhealthyThreshold healthyThreshold =>
    apply registered_recordProbe
  | incInFlight upstream addr => apply registered_modifyAddr
  | decInFlight upstream addr => apply registered_modifyAddr

end OpenRusty
