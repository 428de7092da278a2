import Mathlib.Data.List.Forall2
import Mathlib.Data.List.Nodup
import Mathlib.Data.Option.Basic
import OpenRusty.Server.SdListen

/-!
This module contains the theory of the adoption: the match of the ports is the greedy matching of the
sockets to the ports of the configuration, so it adopts every permutation of the configured addresses,
and each listener gets its own socket exactly if sockets that share a port are inherited in the order
of the configuration.
-/

namespace OpenRusty

theorem nodup_of_validateListeners {ingressEnabled : Bool} {i : Nat} {roles : List ListenerRole}
    {addrs : List SocketAddr} {listeners : List ListenerConfig}
    (h : validateListeners ingressEnabled i roles addrs listeners = .ok ())
    : (listeners.map ListenerConfig.listen).Nodup
      ∧ ∀ addr ∈ listeners.map ListenerConfig.listen, addr ∉ addrs := by
  induction listeners generalizing i roles addrs with
  | nil => simp
  | cons l listeners ih =>
    simp only [validateListeners, Except.unit_bind_eq_ok, require_eq_ok] at h
    obtain ⟨-, hfresh, -, hrest⟩ := h
    obtain ⟨hnodup, hfree⟩ := ih hrest
    have hnot : l.listen ∉ addrs := by
      simpa using hfresh
    rw [List.map_cons, List.nodup_cons]
    refine ⟨⟨?_, hnodup⟩, ?_⟩
    . intro hmem
      exact hfree _ hmem (List.mem_cons_self ..)
    . intro addr hmem
      rcases List.mem_cons.mp hmem with rfl | hmem
      . exact hnot
      . intro hin
        exact hfree addr hmem (List.mem_cons_of_mem _ hin)

theorem nodup_expectedAddrs {server : ServerConfig} {ingressEnabled : Bool}
    (h : validateListeners ingressEnabled 0 [] [] server.listeners = .ok ())
    : (expectedAddrs server).Nodup := by
  unfold expectedAddrs effectiveListeners
  split
  . simp
  . exact (nodup_of_validateListeners h).1

namespace SdListen

open Matching

section matchPorts

variable {α : Type} {port : α → BitVec 16} {items out : List α} {expected : List SocketAddr}
variable {mismatch : String} {used : List Bool} {order : List Nat}

theorem findUnused_eq (items : List α) (used : List Bool) (p : BitVec 16)
    : findUnused (items.map port) used p
        =
      (slotsOf items used).findIdx? fun o => o.any fun x => port x = p := by
  unfold findUnused
  rw [findIdx_slotsOf, List.zip_map_left, List.findIdx?_map]
  rfl

theorem matchLoop_of_assign (hlen : used.length = items.length)
    (h : assign port (slotsOf items used).reduceOption (expected.map SocketAddr.port) = some out)
    : ∃ picked, matchLoop (items.map port) mismatch expected used order = .ok (order ++ picked)
      ∧ takeAll (slotsOf items used) picked = some out := by
  induction expected generalizing used order out with
  | nil =>
    simp only [List.map_nil, assign] at h
    split at h
    . next hempty =>
      cases h
      rw [List.isEmpty_iff] at hempty
      refine ⟨[], ?_, rfl⟩
      unfold matchLoop
      rw [any_unused hlen hempty, List.append_nil]
      rfl
    . cases h
  | cons addr expected ih =>
    simp only [List.map_cons, assign] at h
    unfold matchLoop
    rw [findUnused_eq]
    cases hidx : (slotsOf items used).findIdx? fun o => o.any fun x => port x = addr.port with
    | none =>
      rw [find_of_findIdx_eq_none hidx] at h
      cases h
    | some i =>
      obtain ⟨x, hget, hfind, hset⟩ := take_of_findIdx hidx
      rw [hfind] at h
      obtain ⟨out', hout, rfl⟩ := Option.map_eq_some_iff.mp h
      rw [← hset, set_slotsOf] at hout
      obtain ⟨picked, hloop, htake⟩ := ih (by simpa using hlen) hout
      refine ⟨i :: picked, ?_, ?_⟩
      . dsimp only
        rw [hloop, List.append_assoc, List.singleton_append]
      . rw [takeAll, hget]
        dsimp only
        rw [set_slotsOf, htake]
        rfl

theorem matchPorts_of_assign (names : List (Option String))
    (h : assign port items (expected.map SocketAddr.port) = some out)
    : ∃ order, matchPorts (items.map port) names expected = .ok order
      ∧ takeAll (items.map some) order = some out := by
  rw [← reduceOption_slotsOf_unused items] at h
  obtain ⟨picked, hloop, htake⟩ := matchLoop_of_assign (by simp) h
  rw [slotsOf_unused] at htake
  refine ⟨picked, ?_, htake⟩
  unfold matchPorts
  rw [List.map_map]
  exact hloop

end matchPorts

section adopt

variable {fds adopted : List Socket} {names : List (Option String)} {expected : List SocketAddr}

theorem handOver_of_takeAll {sockets : List (Option Socket)} {order : List Nat}
    {listeners : List Socket} (h : takeAll sockets order = some adopted)
    (hos : ∀ s ∈ adopted, s.setNonblocking = true ∧ s.fromStd = true)
    : handOver sockets order listeners = .ok (listeners ++ adopted) := by
  induction order generalizing sockets listeners adopted with
  | nil =>
    cases h
    simp [handOver]
  | cons i order ih =>
    unfold takeAll at h
    split at h
    . next s hget =>
      obtain ⟨rest, hrest, rfl⟩ := Option.map_eq_some_iff.mp h
      have hs := hos s (List.mem_cons_self ..)
      simp only [handOver, hget, hs.1, hs.2, Bool.and_self, if_true]
      rw [ih hrest fun s' hs' => hos s' (List.mem_cons_of_mem _ hs'), List.append_assoc,
        List.singleton_append]
    . cases h

def Socket.port (s : Socket) : BitVec 16 := (s.localAddr.map SocketAddr.port).getD 0

theorem mapM_localPort (h : ∀ s ∈ fds, s.localAddr.isSome)
    : fds.mapM localPort = .ok (fds.map Socket.port) := by
  induction fds with
  | nil => rfl
  | cons s fds ih =>
    have hsome := h s (List.mem_cons_self ..)
    obtain ⟨addr, haddr⟩ := Option.isSome_iff_exists.mp hsome
    rw [Except.mapM_cons_eq_ok]
    refine ⟨addr.port, fds.map Socket.port, ?_, ih fun s' hs' => h s' (List.mem_cons_of_mem _ hs'), ?_⟩
    . simp [localPort, haddr]
    . simp [Socket.port, haddr]

theorem adoptFds_of_assign (haddr : ∀ s ∈ fds, s.localAddr.isSome)
    (hos : ∀ s ∈ adopted, s.setNonblocking = true ∧ s.fromStd = true)
    (h : assign Socket.port fds (expected.map SocketAddr.port) = some adopted)
    : adoptFds fds names expected = .ok adopted := by
  obtain ⟨order, hmatch, htake⟩ := matchPorts_of_assign names h
  unfold adoptFds
  rw [mapM_localPort haddr]
  simp only [bind, Except.bind, hmatch, Except.mapError]
  rw [handOver_of_takeAll htake hos, List.nil_append]

theorem map_localAddr (h : ∀ s ∈ fds, s.localAddr.isSome)
    : fds.map Socket.localAddr = (fds.filterMap Socket.localAddr).map some := by
  induction fds with
  | nil => rfl
  | cons s fds ih =>
    obtain ⟨addr, haddr⟩ := Option.isSome_iff_exists.mp (h s (List.mem_cons_self ..))
    rw [List.map_cons, List.filterMap_cons_some haddr, List.map_cons, haddr,
      ih fun s' hs' => h s' (List.mem_cons_of_mem _ hs')]

theorem assign_localAddr (haddr : ∀ s ∈ fds, s.localAddr.isSome) {ports : List (BitVec 16)}
    (h : assign Socket.port fds ports = some adopted)
    : ∃ addrs, assign SocketAddr.port (fds.filterMap Socket.localAddr) ports = some addrs
      ∧ adopted.map Socket.localAddr = addrs.map some := by
  let key (o : Option SocketAddr) : BitVec 16 := (o.map SocketAddr.port).getD 0
  have hsockets := assign_map key ports Socket.localAddr fds
  have haddrs := assign_map key ports some (fds.filterMap Socket.localAddr)
  rw [← map_localAddr haddr] at haddrs
  have hport : key ∘ Socket.localAddr = Socket.port := rfl
  have hsome : key ∘ some = SocketAddr.port := rfl
  rw [hport, h, Option.map_some] at hsockets
  rw [hsockets, hsome, eq_comm, Option.map_eq_some_iff] at haddrs
  obtain ⟨addrs, hassign, heq⟩ := haddrs
  exact ⟨addrs, hassign, heq.symm⟩

def Own (fds : List Socket) (s : Socket) (addr : SocketAddr) : Prop :=
  s ∈ fds ∧ s.localAddr = some addr ∧ ∀ s' ∈ fds, s'.localAddr = some addr → s' = s

theorem forall₂_own_iff (hperm : adopted.Perm fds) (hnodup : (fds.map Socket.localAddr).Nodup)
    : List.Forall₂ (Own fds) adopted expected ↔ adopted.map Socket.localAddr = expected.map some := by
  rw [← List.forall₂_eq_eq_eq, List.forall₂_map_left_iff, List.forall₂_map_right_iff]
  constructor
  . intro h
    exact h.imp fun s addr hown => hown.2.1
  . intro h
    have hmem : ∀ s ∈ adopted, s ∈ fds := fun s hs => hperm.mem_iff.mp hs
    clear hperm
    induction h with
    | nil => exact .nil
    | cons heq _ ih =>
      have hs := hmem _ (List.mem_cons_self ..)
      refine .cons ⟨hs, heq, ?_⟩ (ih fun s hs => hmem s (List.mem_cons_of_mem _ hs))
      intro s' hs' heq'
      exact List.inj_on_of_nodup_map hnodup hs' hs (heq'.trans heq.symm)

def SameOrderByPort (fds : List Socket) (expected : List SocketAddr) : Prop :=
  ∀ port, expected.filter (fun addr => addr.port = port)
    = (fds.filterMap Socket.localAddr).filter fun addr => addr.port = port

variable {server : ServerConfig} {ingressEnabled : Bool}

theorem adoptFds_own_iff
    (hvalid : validateListeners ingressEnabled 0 [] [] server.listeners = .ok ())
    (haddrs : (fds.map Socket.localAddr).Perm ((expectedAddrs server).map some))
    (hos : ∀ s ∈ fds, s.setNonblocking = true ∧ s.fromStd = true) (names : List (Option String))
    : ∃ adopted, adoptFds fds names (expectedAddrs server) = .ok adopted
      ∧ (List.Forall₂ (Own fds) adopted (expectedAddrs server)
          ↔
        SameOrderByPort fds (expectedAddrs server)) := by
  have hsome : ∀ s ∈ fds, s.localAddr.isSome := by
    intro s hs
    have hmem := haddrs.mem_iff.mp (List.mem_map_of_mem hs)
    obtain ⟨addr, -, heq⟩ := List.mem_map.mp hmem
    rw [← heq]
    rfl
  have hnodup : (fds.map Socket.localAddr).Nodup := by
    rw [haddrs.nodup_iff, List.nodup_map_iff (Option.some_injective _)]
    exact nodup_expectedAddrs hvalid
  have hports : (fds.map Socket.port).Perm ((expectedAddrs server).map SocketAddr.port) := by
    have := haddrs.map fun o => (o.map SocketAddr.port).getD 0
    rwa [List.map_map, List.map_map] at this
  obtain ⟨adopted, hassign, hperm⟩ := exists_assign hports
  refine ⟨adopted, ?_, ?_⟩
  . apply adoptFds_of_assign hsome _ hassign
    intro s hs
    exact hos s (hperm.mem_iff.mp hs)
  . rw [forall₂_own_iff hperm hnodup]
    obtain ⟨addrs, haddrs, heq⟩ := assign_localAddr hsome hassign
    have hinj : addrs.map some = (expectedAddrs server).map some ↔ addrs = expectedAddrs server :=
      (List.map_injective_iff.mpr (Option.some_injective _)).eq_iff
    rw [heq, hinj]
    constructor
    . rintro rfl
      exact (assign_eq_some.mp haddrs).2
    . intro hsame
      have hexp := assign_eq_some.mpr ⟨rfl, hsame⟩
      rw [haddrs] at hexp
      exact Option.some.inj hexp

def sharedPort : ServerConfig where
  listen := { ip := .v4 0x00000000#32, port := 80#16 }
  listeners := [
    { role := .inbound, listen := { ip := .v4 0x0a000005#32, port := 8080#16 } },
    { role := .admin, listen := { ip := .v4 0x7f000001#32, port := 8080#16 } }
  ]

def dataSocket (fd : Nat) : Socket :=
  { fd := fd, localAddr := some { ip := .v4 0x0a000005#32, port := 8080#16 } }

def adminSocket (fd : Nat) : Socket :=
  { fd := fd, localAddr := some { ip := .v4 0x7f000001#32, port := 8080#16 } }

theorem adoptFds_own_iff_sharedPort
    : ∃ adopted, adoptFds [dataSocket 3, adminSocket 4] [] (expectedAddrs sharedPort) = .ok adopted
      ∧ (List.Forall₂ (Own [dataSocket 3, adminSocket 4]) adopted (expectedAddrs sharedPort)
          ↔
        SameOrderByPort [dataSocket 3, adminSocket 4] (expectedAddrs sharedPort)) := by
  have hvalid : validateListeners false 0 [] [] sharedPort.listeners = .ok () := by decide +kernel
  have haddrs : ([dataSocket 3, adminSocket 4].map Socket.localAddr).Perm
      ((expectedAddrs sharedPort).map some) := by
    decide +kernel
  exact adoptFds_own_iff hvalid haddrs (by decide) []

theorem adoptFds_swaps
    : validateListeners false 0 [] [] sharedPort.listeners = .ok ()
      ∧ ([adminSocket 3, dataSocket 4].map Socket.localAddr).Perm
        ((expectedAddrs sharedPort).map some)
      ∧ adoptFds [adminSocket 3, dataSocket 4] [] (expectedAddrs sharedPort)
        = .ok [adminSocket 3, dataSocket 4]
      ∧ ¬List.Forall₂ (Own [adminSocket 3, dataSocket 4]) [adminSocket 3, dataSocket 4]
        (expectedAddrs sharedPort) := by
  refine ⟨by decide +kernel, by decide +kernel, by decide +kernel, ?_⟩
  intro h
  have hfirst := (List.forall₂_cons.mp h).1.2.1
  revert hfirst
  decide

end adopt

end SdListen

end OpenRusty
