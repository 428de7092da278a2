import OpenRusty.Scheduler.Balancer
import OpenRusty.Wasm.Scan.Lemmas

/-!
This module contains what a step of a balancer run does to the store: it sets one key, or it adds nothing
and loses at most entries that have expired.
-/

namespace OpenRusty
namespace Scheduler

def Drops (t : Nat) (s s' : Store) : Prop :=
  ∃ keep : Bytes → KvEntry → Bool,
    s'.plugin.kv = s.plugin.kv.retain keep
      ∧ ∀ key e, s.plugin.kv.lookup key = some e → keep key e = false → isExpired e.expiresAt t = true

namespace Drops

theorem of_eq (t : Nat) {s s' : Store} (h : s'.plugin.kv = s.plugin.kv) : Drops t s s' := by
  refine ⟨fun _ _ => true, ?_, nofun⟩
  rw [h, AList.retain_eq_self fun _ _ => rfl]

theorem mono {t t' : Nat} {s s' : Store} (h : Drops t s s') (ht : t ≤ t') : Drops t' s s' := by
  rcases h with ⟨keep, heq, hkeep⟩
  refine ⟨keep, heq, ?_⟩
  intro key e hlook hdropped
  exact isExpired_mono (hkeep key e hlook hdropped) ht

theorem lookup {t : Nat} {s s' : Store} (h : Drops t s s') {key : Bytes} {e : KvEntry}
    (hlook : s.plugin.kv.lookup key = some e) (hlive : isExpired e.expiresAt t = false)
    : s'.plugin.kv.lookup key = some e := by
  rcases h with ⟨keep, heq, hkeep⟩
  rw [heq, AList.lookup_retain, hlook, Option.filter_eq_some_iff]
  refine ⟨rfl, ?_⟩
  cases hdropped : keep key e with
  | true => rfl
  | false =>
    have hexpired := hkeep key e hlook hdropped
    rw [hlive] at hexpired
    cases hexpired

theorem weight_le {t : Nat} {s s' : Store} (h : Drops t s s') (f : Bytes → KvEntry → Nat)
    : s'.plugin.kv.weight f ≤ s.plugin.kv.weight f := by
  rcases h with ⟨keep, heq, -⟩
  have := AList.weight_retain f keep s.plugin.kv
  rw [heq]
  omega

theorem kvGet (s : Store) (key : Bytes) (nowMs : Nat) : Drops nowMs s (s.kvGet key nowMs).2 := by
  rcases s.plugin.toHostState.kvGetWith_cases key id nowMs with heq | ⟨e, hlook, hexpired, heq⟩
  . apply of_eq
    change (s.plugin.toHostState.kvGetWith key id nowMs).2.kv = _
    rw [heq]
  . refine ⟨fun key' _ => decide (key' ≠ key), ?_, ?_⟩
    . change (s.plugin.toHostState.kvGetWith key id nowMs).2.kv = _
      rw [heq, HostState.account_kv]
      exact AList.erase_eq_retain _ _
    . intro key' e' hlook' hdropped
      cases not_not.mp (of_decide_eq_false hdropped)
      rw [hlook] at hlook'
      cases hlook'
      exact hexpired

theorem of_sweep {s s' : Store} {nowMs : Nat}
    (h : s'.plugin.kv = (s.plugin.toHostState.sweep nowMs).2.kv)
    : Drops nowMs s s' := by
  refine ⟨fun _ e => !(true && isExpired e.expiresAt nowMs), ?_, ?_⟩
  . unfold HostState.sweep HostState.retainLive at h
    dsimp only at h
    rw [h, HostState.retainCursors_kv, HostState.account_kv]
  . intro key e _ hdropped
    simpa using hdropped

theorem kvScanBegin (s : Store) (pre : Bytes) (x : Input) : Drops x.sweptAt s (s.kvScanBegin pre x).2 := by
  have hkv : (s.kvScanBegin pre x).2.plugin.kv = (s.plugin.maintain x.sweptAt).kv := by
    unfold Store.kvScanBegin PluginState.scanBegin
    dsimp only
    split
    . rfl
    . split
      . rfl
      . rfl
  unfold PluginState.maintain at hkv
  split at hkv
  . exact of_sweep hkv
  . exact of_eq _ hkv

theorem kvScanNext (t : Nat) (s : Store) (cursor : Int) (x : Input)
    : Drops t s (s.kvScanNext cursor x).2.2 := by
  apply of_eq
  unfold Store.kvScanNext
  dsimp only
  split
  . split
    . split
      . unfold HostState.scanAdvance
        dsimp only
        split
        . split
          . rfl
          . rfl
        . rfl
      . rfl
    . next hpeek =>
      unfold HostState.scanNext
      rw [hpeek]
  . rfl

theorem kvScanEnd (t : Nat) (s : Store) (cursor : Int) (x : Input) : Drops t s (s.kvScanEnd cursor x) := by
  apply of_eq
  unfold Store.kvScanEnd HostState.kvScanEnd
  dsimp only
  split
  . rfl
  . rfl

end Drops

theorem kvSet_cases (s : Store) (key val : Bytes) (ttlMs : Int) (nowMs : Nat)
    : ((s.plugin.toHostState.kvSet key val ttlMs nowMs).1 = false
          ∧ (s.kvSet key val ttlMs nowMs).plugin.kv = s.plugin.kv)
        ∨ ((s.plugin.toHostState.kvSet key val ttlMs nowMs).1 = true
          ∧ (s.kvSet key val ttlMs nowMs).plugin.kv
              =
            s.plugin.kv.insert key { value := val, expiresAt := expiryOf ttlMs nowMs }) := by
  change (_ ∧ (s.plugin.toHostState.kvSet key val ttlMs nowMs).2.kv = _)
    ∨ (_ ∧ (s.plugin.toHostState.kvSet key val ttlMs nowMs).2.kv = _)
  rcases s.plugin.toHostState.kvSet_cases key val ttlMs nowMs with heq | ⟨-, -, heq⟩
  . rw [heq]
    exact .inl ⟨rfl, rfl⟩
  . rw [heq, HostState.account_kv]
    exact .inr ⟨rfl, rfl⟩

def Stage.writes (t : Stage) : Option (Bytes × Bytes) :=
  match t with
  | .renew task _ idx => some (affKey task, asciiU64 idx)
  | .record task _ pick => some (affKey task, asciiU64 pick)
  | .stamp pick nowMs => some (schedKey pick, asciiU64 nowMs)
  | _ => none

theorem clock_kvScanNext (s : Store) (cursor : Int) (x : Input) : (s.kvScanNext cursor x).2.2.clock = x.nowMs := by
  unfold Store.kvScanNext
  dsimp only
  split
  . split
    . split
      . rfl
      . rfl
    . rfl
  . rfl

section act

variable {cfg : Settings} {s s' : Store} {t t' : Stage} {x : Input} {task : Bytes}

theorem drops_getAff {peers : Peers} (h : act cfg s (.getAff task peers) x = some (s', t'))
    : s'.clock = x.nowMs ∧ Drops x.nowMs s s' := by
  unfold act at h
  dsimp only at h
  split at h
  . cases h
    exact ⟨rfl, Drops.kvGet s (affKey task) x.nowMs⟩
  . cases h
    exact ⟨rfl, Drops.kvGet s (affKey task) x.nowMs⟩

theorem drops_scanBegin {peers : Peers} (h : act cfg s (.scanBegin task peers) x = some (s', t'))
    : s'.clock = x.nowMs ∧ Drops x.sweptAt s s' := by
  unfold act at h
  dsimp only at h
  split at h
  . cases h
    exact ⟨rfl, Drops.kvScanBegin s affPrefix x⟩
  . cases h
    exact ⟨rfl, Drops.kvScanBegin s affPrefix x⟩

theorem drops_scanNext {peers : Peers} {cursor : Int} {active : List Nat}
    (h : act cfg s (.scanNext task peers cursor active) x = some (s', t'))
    : s'.clock = x.nowMs ∧ Drops (max x.sweptAt x.nowMs) s s' := by
  have hdrops := Drops.kvScanNext (max x.sweptAt x.nowMs) s cursor x
  have hclock := clock_kvScanNext s cursor x
  revert hdrops hclock h
  unfold act
  dsimp only
  rcases s.kvScanNext cursor x with ⟨_ | val, cursor', s''⟩
  . intro h hdrops hclock
    dsimp only at h
    split at h
    . cases h
      exact ⟨hclock, hdrops⟩
    . cases h
      exact ⟨hclock, hdrops⟩
  . intro h hdrops hclock
    cases h
    exact ⟨hclock, hdrops⟩

theorem act_effect (h : act cfg s t x = some (s', t'))
    : s'.clock = x.nowMs
        ∧ match t.writes with
          | none => Drops (max x.sweptAt x.nowMs) s s'
          | some (key, val) => s' = s.kvSet key val (ttlMs cfg) x.nowMs := by
  have hswept : x.sweptAt ≤ max x.sweptAt x.nowMs := Nat.le_max_left _ _
  have hnow : x.nowMs ≤ max x.sweptAt x.nowMs := Nat.le_max_right _ _
  cases t with
  | getAff task peers =>
    obtain ⟨hclock, hdrops⟩ := drops_getAff h
    exact ⟨hclock, hdrops.mono hnow⟩
  | renew task peers idx =>
    cases h
    exact ⟨rfl, rfl⟩
  | stick task peers idx =>
    cases h
    exact ⟨rfl, .of_eq _ rfl⟩
  | scanBegin task peers =>
    obtain ⟨hclock, hdrops⟩ := drops_scanBegin h
    exact ⟨hclock, hdrops.mono hswept⟩
  | scanNext task peers cursor active => exact drops_scanNext h
  | scanEnd task peers cursor active =>
    cases h
    exact ⟨rfl, .kvScanEnd _ s _ _⟩
  | schedTs task peers active stamps =>
    cases h
    exact ⟨rfl, (Drops.kvGet s _ _).mono hnow⟩
  | record task active pick =>
    cases h
    exact ⟨rfl, rfl⟩
  | readClock pick =>
    cases h
    exact ⟨rfl, .of_eq _ rfl⟩
  | stamp pick nowMs =>
    cases h
    exact ⟨rfl, rfl⟩
  | setPeer pick =>
    cases h
    exact ⟨rfl, .of_eq _ rfl⟩
  | returned decision => cases h
  | maintenance =>
    cases h
    have hdrops : Drops x.nowMs s (s.sweep x) := .of_sweep rfl
    exact ⟨rfl, hdrops.mono hnow⟩

end act

/-!
The peers that are named by a record and by a choice.
-/

def Peers.isHealthy (peers : Peers) (idx : Nat) : Bool := peers.list[idx]?.any PeerInfo.healthy

namespace Peers

theorem isHealthy_iff {peers : Peers} {idx : Nat}
    : peers.isHealthy idx = true ↔ ∃ peer, peers.list[idx]? = some peer ∧ peer.healthy = true := by
  exact Option.any_eq_true _ _

theorem lt_of_isHealthy {peers : Peers} {idx : Nat} (h : peers.isHealthy idx = true)
    : idx < peers.list.length := by
  rcases isHealthy_iff.mp h with ⟨peer, hpeer, -⟩
  exact (List.getElem?_eq_some_iff.mp hpeer).1

theorem isHealthy_eq_false {peers : Peers} (h : ∀ peer ∈ peers.list, peer.healthy = false) (idx : Nat)
    : peers.isHealthy idx = false := by
  rw [Bool.eq_false_iff]
  intro hhealthy
  rcases isHealthy_iff.mp hhealthy with ⟨peer, hpeer, hhealthy⟩
  rw [h peer (List.mem_of_getElem? hpeer)] at hhealthy
  cases hhealthy

theorem lt_word_of_isHealthy {peers : Peers} {idx : Nat} (h : peers.isHealthy idx = true) : idx < 2 ^ 32 := by
  have hlt := lt_of_isHealthy h
  have hlength := peers.length_le
  unfold i32Max at hlength
  omega

end Peers

theorem recordPeer_asciiU64 {idx : Nat} (h : idx < 2 ^ 32) : recordPeer (asciiU64 idx) = some idx := by
  unfold recordPeer
  rw [parseAsciiU64_asciiU64 (by omega), Option.map_some, asU32, Nat.mod_eq_of_lt h]

theorem affinityPeer_eq_some {val : Bytes} {peers : Peers} {idx : Nat}
    : affinityPeer (some val) peers = some idx ↔ recordPeer val = some idx ∧ peers.isHealthy idx = true := by
  unfold affinityPeer
  rw [Peers.isHealthy_iff]
  simp only [Option.bind_eq_bind, Option.bind_some, Option.bind_eq_some_iff]
  constructor
  . rintro ⟨idx', hidx, peer, hpeer, hif⟩
    split at hif
    . next hhealthy =>
      cases hif
      exact ⟨hidx, peer, hpeer, hhealthy⟩
    . cases hif
  . rintro ⟨hidx, peer, hpeer, hhealthy⟩
    exact ⟨idx, hidx, peer, hpeer, if_pos hhealthy⟩

theorem isHealthy_of_affinityPeer {raw : Option Bytes} {peers : Peers} {idx : Nat}
    (h : affinityPeer raw peers = some idx)
    : peers.isHealthy idx = true := by
  cases raw with
  | none => cases h
  | some val => exact (affinityPeer_eq_some.mp h).2

theorem isHealthy_of_choose {cfg : Settings} {peers : Peers} {active stamps : List Nat} {pick : Nat}
    (h : chooseLeastLoaded (nodeStats cfg peers active stamps) = some pick)
    : peers.isHealthy pick = true ∧ (cap cfg = 0 ∨ active.getD pick 0 < cap cfg) := by
  rcases chooseLeastLoaded_eq_some h with ⟨node, hnode, heligible, -⟩
  unfold nodeStats at hnode
  rw [List.getElem?_mapIdx, Option.map_eq_some_iff] at hnode
  rcases hnode with ⟨peer, hpeer, rfl⟩
  exact ⟨Peers.isHealthy_iff.mpr ⟨peer, hpeer, heligible.1⟩, heligible.2⟩

end Scheduler
end OpenRusty
