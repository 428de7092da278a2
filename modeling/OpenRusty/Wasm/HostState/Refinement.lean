import Mathlib.Data.List.Induction
import OpenRusty.Lib.TimedMap
import OpenRusty.Wasm.HostState.Lemmas

/-!
This module contains the refinement of the ideal timed map by the KV store of a plugin: in every
sequence of calls with a nondecreasing clock each lookup and each scan answers what the map built
from the accepted sets and the deletes alone shows at that instant. The simulation relation compares
what is live from now on, so it does not see the expired entries that linger in the store.
-/

namespace OpenRusty

inductive KvOp where
  | set (key val : Bytes) (ttlMs : Int)
  | del (key : Bytes)
  | get (key : Bytes)
  | scan (pre : Bytes)
  | sweep
  deriving DecidableEq, Repr

inductive KvAnswer where
  | done (ok : Bool)
  | value (v : Option Bytes)
  | pairs (l : List (Bytes × Bytes))
  | count (n : Nat)
  deriving DecidableEq, Repr

namespace HostState

def exec (s : HostState) (op : KvOp) (nowMs : Nat) : KvAnswer × HostState :=
  match op with
  | .set key val ttlMs =>
    match s.kvSet key val ttlMs nowMs with
    | (ok, s) => (.done ok, s)
  | .del key =>
    match s.kvDel key with
    | (ok, s) => (.done ok, s)
  | .get key =>
    match s.kvGet key nowMs with
    | (v, s) => (.value v, s)
  | .scan pre => (.pairs (s.kvScan pre nowMs), s)
  | .sweep =>
    match s.sweep nowMs with
    | (n, s) => (.count n, s)

end HostState

abbrev IdealKv := TimedMap Bytes Bytes

namespace IdealKv

/-- A deadline beyond the largest word is no deadline. -/
def deadlineOf (ttlMs : Int) (nowMs : Nat) : Option Nat :=
  if ttlMs ≤ 0 ∨ Word.max 64 ≤ nowMs + ttlMs.toNat then none else some (nowMs + ttlMs.toNat)

def step (m : IdealKv) (op : KvOp) (nowMs : Nat) (answer : KvAnswer) : IdealKv :=
  match op, answer with
  | .set key val ttlMs, .done true => m.put key val (deadlineOf ttlMs nowMs)
  | .del key, _ => m.delete key
  | _, _ => m

def Answers (m : IdealKv) (op : KvOp) (nowMs : Nat) (answer : KvAnswer) : Prop :=
  match op with
  | .get key => answer = .value (m.visible key nowMs)
  | .scan pre =>
    ∃ l, answer = .pairs l
      ∧ l.Pairwise (fun x y => x.1 < y.1)
      ∧ ∀ key val, (key, val) ∈ l ↔ pre <+: key ∧ m.visible key nowMs = some val
  | _ => True

end IdealKv

def execAll (calls : List (KvOp × Nat)) : HostState × IdealKv :=
  calls.foldl go (HostState.new, TimedMap.empty)
where
  go (x : HostState × IdealKv) (call : KvOp × Nat) : HostState × IdealKv :=
    match x.1.exec call.1 call.2 with
    | (answer, s) => (s, IdealKv.step x.2 call.1 call.2 answer)

theorem isExpired_expiryOf (ttlMs : Int) (nowMs t : Nat)
    : isExpired (expiryOf ttlMs nowMs) t
        =
      TimedMap.passed (IdealKv.deadlineOf ttlMs nowMs) t := by
  unfold expiryOf IdealKv.deadlineOf
  split
  . next h => simp [isExpired, TimedMap.passed, h]
  . next h =>
    unfold Word.saturatingAdd
    by_cases hmax : Word.max 64 ≤ nowMs + ttlMs.toNat
    . rw [Nat.min_eq_right hmax]
      simp [isExpired, TimedMap.passed, hmax]
    . rw [Nat.min_eq_left (by omega)]
      have hne : nowMs + ttlMs.toNat ≠ Word.max 64 := by omega
      simp [isExpired, TimedMap.passed, h, hmax, hne]

structure HostState.Accounted (s : HostState) : Prop where
  counted : s.totalBytes = s.storedBytes
  total_le : s.storedBytes ≤ kvMaxTotalBytes
  value_le : ∀ key e, s.kv.lookup key = some e → e.value.length ≤ kvMaxValueBytes

namespace HostState

theorem accounted_new : new.Accounted where
  counted := by rfl
  total_le := by decide
  value_le := by
    intro key e h
    cases h

theorem Accounted.lt_word {s : HostState} (h : s.Accounted) : s.totalBytes < 2 ^ 64 := by
  rw [h.counted]
  apply Nat.lt_of_le_of_lt h.total_le
  decide

theorem Accounted.of_removed {s s' : HostState} {removed : Nat} (h : s.Accounted)
    (htotal : s'.totalBytes = s.totalBytes) (hstored : s'.storedBytes + removed = s.storedBytes)
    (hsub : ∀ key e, s'.kv.lookup key = some e → s.kv.lookup key = some e)
    : (s'.account 0 removed).Accounted where
  counted := by
    have hlt := h.lt_word
    have hcounted := h.counted
    rw [totalBytes_account (by omega) (by omega)]
    rw [storedBytes_account]
    omega
  total_le := by
    have := h.total_le
    rw [storedBytes_account]
    omega
  value_le := by
    intro key e he
    rw [account_kv] at he
    exact h.value_le key e (hsub key e he)

section removeIf

variable {s : HostState} {key : Bytes} {e : KvEntry}

theorem Accounted.of_erased (h : s.Accounted) (he : s.kv.lookup key = some e)
    : (account { s with kv := s.kv.erase key } 0 (entrySize key e)).Accounted := by
  apply h.of_removed
  . rfl
  . apply storedBytes_erase he
  . intro k e' he'
    dsimp at he'
    rw [lookup_erase_kv] at he'
    split at he'
    . cases he'
    . exact he'

end removeIf

theorem kvGetWith_cases (s : HostState) (key : Bytes) (f : Bytes → ρ) (nowMs : Nat)
    : s.kvGetWith key f nowMs = ((s.live key nowMs).map f, s)
        ∨
      ∃ e, s.kv.lookup key = some e ∧ isExpired e.expiresAt nowMs = true
        ∧ s.kvGetWith key f nowMs
            =
          ((s.live key nowMs).map f,
            account { s with kv := s.kv.erase key } 0 (entrySize key e)) := by
  unfold kvGetWith kvGetWith.evict
  cases hlook : s.kv.lookup key with
  | none =>
    left
    simp [removeIf, hlook, live_of_lookup_eq_none hlook]
  | some e =>
    cases hexp : isExpired e.expiresAt nowMs with
    | false =>
      left
      simp [live_of_lookup hlook, hexp]
    | true =>
      right
      refine ⟨e, rfl, hexp, ?_⟩
      simp [removeIf, hlook, live_of_lookup hlook, hexp]

theorem kvDel_cases (s : HostState) (key : Bytes)
    : s.kvDel key = (false, s) ∧ s.kv.lookup key = none
        ∨
      ∃ e, s.kv.lookup key = some e
        ∧ s.kvDel key = (true, account { s with kv := s.kv.erase key } 0 (entrySize key e)) := by
  unfold kvDel
  cases removeIf_cases s key fun _ => true with
  | inl h =>
    left
    refine ⟨by rw [h.1], ?_⟩
    cases hlook : s.kv.lookup key with
    | none => rfl
    | some e => simpa using h.2 e hlook
  | inr h =>
    obtain ⟨e, he, -, heq⟩ := h
    right
    exact ⟨e, he, by rw [heq]⟩

theorem kvSet_cases (s : HostState) (key val : Bytes) (ttlMs : Int) (nowMs : Nat)
    : s.kvSet key val ttlMs nowMs = (false, s)
        ∨
      val.length ≤ kvMaxValueBytes
        ∧ s.totalBytes - s.kv.weightAt entrySize key + (key.length + val.length) ≤ kvMaxTotalBytes
        ∧ s.kvSet key val ttlMs nowMs
            =
          (true,
            (s.insert key { value := val, expiresAt := expiryOf ttlMs nowMs }).2.account
              (key.length + val.length) (s.kv.weightAt entrySize key)) := by
  unfold kvSet
  dsimp
  split
  . next h =>
    right
    rw [kvSetVerdict_iff] at h
    refine ⟨h.1, h.2, rfl⟩
  . left
    rfl

theorem Accounted.of_set {s : HostState} {key val : Bytes} {expiresAt : Nat} (h : s.Accounted)
    (hval : val.length ≤ kvMaxValueBytes)
    (hfit : s.totalBytes - s.kv.weightAt entrySize key + (key.length + val.length)
      ≤ kvMaxTotalBytes)
    : ((s.insert key { value := val, expiresAt := expiresAt }).2.account
        (key.length + val.length) (s.kv.weightAt entrySize key)).Accounted := by
  have hstored := storedBytes_insert s key { value := val, expiresAt := expiresAt }
  have hle := AList.weightAt_le entrySize s.kv key
  have hlt := h.lt_word
  have hcounted := h.counted
  have hmax : kvMaxTotalBytes + kvMaxTotalBytes < 2 ^ 64 := by decide
  have htotal := h.total_le
  change _ ≤ s.storedBytes at hle
  change _ = s.storedBytes + (key.length + val.length) at hstored
  constructor
  . rw [totalBytes_account, storedBytes_account, insert_totalBytes]
    . omega
    . rw [insert_totalBytes]
      omega
    . rw [insert_totalBytes]
      omega
  . rw [storedBytes_account]
    omega
  . intro k e he
    rw [account_kv, lookup_insert] at he
    split at he
    . cases he
      exact hval
    . exact h.value_le k e he

theorem Accounted.of_sweep {s : HostState} (h : s.Accounted) (nowMs : Nat)
    : (s.sweep nowMs).2.Accounted := by
  have hacc : ((s.retainLive (fun _ => true) nowMs).2.2.account 0
      (s.retainLive (fun _ => true) nowMs).2.1).Accounted := by
    apply h.of_removed
    . apply retainLive_totalBytes
    . apply storedBytes_retainLive
    . intro k e he
      rw [lookup_retainLive, Option.filter_eq_some_iff] at he
      exact he.1
  exact ⟨hacc.counted, hacc.total_le, hacc.value_le⟩

theorem Accounted.exec {s : HostState} (h : s.Accounted) (op : KvOp) (nowMs : Nat)
    : (s.exec op nowMs).2.Accounted := by
  cases op with
  | set key val ttlMs =>
    cases kvSet_cases s key val ttlMs nowMs with
    | inl heq =>
      simp only [HostState.exec, heq]
      exact h
    | inr hset =>
      obtain ⟨hval, hfit, heq⟩ := hset
      simp only [HostState.exec, heq]
      exact h.of_set hval hfit
  | del key =>
    cases kvDel_cases s key with
    | inl heq =>
      simp only [HostState.exec, heq.1]
      exact h
    | inr hdel =>
      obtain ⟨e, he, heq⟩ := hdel
      simp only [HostState.exec, heq]
      exact h.of_erased he
  | get key =>
    cases kvGetWith_cases s key id nowMs with
    | inl heq =>
      simp only [HostState.exec, kvGet, heq]
      exact h
    | inr hget =>
      obtain ⟨e, he, -, heq⟩ := hget
      simp only [HostState.exec, kvGet, heq]
      exact h.of_erased he
  | scan pre => exact h
  | sweep => exact h.of_sweep nowMs

theorem mem_kvScan (s : HostState) (pre : Bytes) (nowMs : Nat) (key val : Bytes)
    : (key, val) ∈ s.kvScan pre nowMs ↔ pre <+: key ∧ s.live key nowMs = some val := by
  unfold kvScan
  dsimp
  rw [List.mem_insertionSort, live_eq_some]
  simp only [List.mem_map, List.mem_filter, Bool.and_eq_true, Bool.not_eq_true',
    List.isPrefixOf_iff_prefix, Prod.mk.injEq]
  constructor
  . rintro ⟨⟨k, e⟩, ⟨hmem, hpre, hexp⟩, rfl, rfl⟩
    exact ⟨hpre, e, AList.mem_lookup_iff.mpr hmem, hexp, rfl⟩
  . rintro ⟨hpre, e, hlook, hexp, rfl⟩
    exact ⟨⟨key, e⟩, ⟨AList.mem_lookup_iff.mp hlook, hpre, hexp⟩, rfl, rfl⟩

theorem pairwise_kvScan (s : HostState) (pre : Bytes) (nowMs : Nat)
    : (s.kvScan pre nowMs).Pairwise fun x y => x.1 < y.1 := by
  have hsorted : (s.kvScan pre nowMs).Pairwise fun x y => x.1 ≤ y.1 := by
    unfold kvScan
    apply List.pairwise_insertionSort
  have hnodup : (s.kvScan pre nowMs).Pairwise fun x y => x.1 ≠ y.1 := by
    rw [← List.pairwise_map]
    unfold kvScan
    dsimp
    apply ((List.perm_insertionSort _ _).map Prod.fst).nodup_iff.mpr
    rw [List.map_map]
    exact (s.kv.nodupKeys.sublist List.filter_sublist)
  apply (hsorted.and hnodup).imp
  rintro x y ⟨hle, hne⟩
  exact Std.lt_of_le_of_ne hle hne

end HostState

def Simulates (s : HostState) (m : IdealKv) (nowMs : Nat) : Prop :=
  ∀ key t, nowMs ≤ t → s.live key t = m.visible key t

namespace Simulates

variable {s : HostState} {m : IdealKv} {nowMs : Nat}

theorem mono {t : Nat} (h : Simulates s m nowMs) (ht : nowMs ≤ t) : Simulates s m t := by
  intro key t' ht'
  apply h
  omega

theorem of_erased {key : Bytes} (h : Simulates s m nowMs) {s' : HostState}
    (hkv : s'.kv = s.kv.erase key)
    (hexp : ∀ e, s.kv.lookup key = some e → isExpired e.expiresAt nowMs = true)
    : Simulates s' m nowMs := by
  intro k t ht
  rw [← h k t ht]
  apply HostState.live_of_dropped _ ht
  rw [hkv, HostState.lookup_erase_kv]
  split
  . next hk =>
    subst hk
    right
    exact ⟨rfl, hexp⟩
  . left
    rfl

theorem delete {key : Bytes} (h : Simulates s m nowMs) {s' : HostState}
    (hkv : ∀ k, s'.kv.lookup k = if k = key then none else s.kv.lookup k)
    : Simulates s' (m.delete key) nowMs := by
  intro k t ht
  by_cases hk : k = key
  . subst hk
    rw [HostState.live_of_lookup_eq_none (by simp [hkv])]
    simp
  . rw [TimedMap.visible_delete_ne m hk]
    rw [← h k t ht]
    apply HostState.live_congr
    simp [hkv, hk]

theorem put {key val : Bytes} {ttlMs : Int} (h : Simulates s m nowMs) {s' : HostState}
    (hkv : ∀ k, s'.kv.lookup k
      = if k = key then some ⟨val, expiryOf ttlMs nowMs⟩ else s.kv.lookup k)
    : Simulates s' (m.put key val (IdealKv.deadlineOf ttlMs nowMs)) nowMs := by
  intro k t ht
  by_cases hk : k = key
  . subst hk
    rw [HostState.live_of_lookup (by simp [hkv]; rfl)]
    rw [isExpired_expiryOf]
    simp
  . rw [TimedMap.visible_put_ne m hk]
    rw [← h k t ht]
    apply HostState.live_congr
    simp [hkv, hk]

theorem sweep (h : Simulates s m nowMs) : Simulates (s.sweep nowMs).2 m nowMs := by
  intro k t ht
  rw [← h k t ht]
  exact HostState.live_sweep s k ht

theorem exec (h : Simulates s m nowMs) (op : KvOp)
    : Simulates (s.exec op nowMs).2 (IdealKv.step m op nowMs (s.exec op nowMs).1) nowMs := by
  cases op with
  | set key val ttlMs =>
    cases HostState.kvSet_cases s key val ttlMs nowMs with
    | inl heq =>
      simp only [HostState.exec, heq, IdealKv.step]
      exact h
    | inr hset =>
      obtain ⟨-, -, heq⟩ := hset
      simp only [HostState.exec, heq, IdealKv.step]
      apply h.put
      intro k
      rw [HostState.account_kv, HostState.lookup_insert]
  | del key =>
    cases HostState.kvDel_cases s key with
    | inl heq =>
      simp only [HostState.exec, heq.1, IdealKv.step]
      apply h.delete
      intro k
      split
      . next hk =>
        rw [hk]
        exact heq.2
      . rfl
    | inr hdel =>
      obtain ⟨e, -, heq⟩ := hdel
      simp only [HostState.exec, heq, IdealKv.step]
      apply h.delete
      intro k
      rw [HostState.account_kv, HostState.lookup_erase_kv]
  | get key =>
    cases HostState.kvGetWith_cases s key id nowMs with
    | inl heq =>
      simp only [HostState.exec, HostState.kvGet, heq, IdealKv.step]
      exact h
    | inr hget =>
      -- The entry has expired and is reaped by the call, which the ideal map does not see.
      obtain ⟨e, he, hexp, heq⟩ := hget
      simp only [HostState.exec, HostState.kvGet, heq, IdealKv.step]
      apply h.of_erased
      . apply HostState.account_kv
      . intro e' he'
        rw [he] at he'
        cases he'
        exact hexp
  | scan pre => exact h
  | sweep => exact h.sweep

theorem answers (h : Simulates s m nowMs) (op : KvOp)
    : m.Answers op nowMs (s.exec op nowMs).1 := by
  cases op with
  | get key =>
    have hlive := h key nowMs (Nat.le_refl _)
    cases HostState.kvGetWith_cases s key id nowMs with
    | inl heq => simp [HostState.exec, HostState.kvGet, heq, IdealKv.Answers, hlive]
    | inr hget =>
      obtain ⟨e, -, -, heq⟩ := hget
      simp [HostState.exec, HostState.kvGet, heq, IdealKv.Answers, hlive]
  | scan pre =>
    refine ⟨s.kvScan pre nowMs, rfl, s.pairwise_kvScan pre nowMs, ?_⟩
    intro key val
    rw [HostState.mem_kvScan, h key nowMs (Nat.le_refl _)]
  | set key val ttlMs => trivial
  | del key => trivial
  | sweep => trivial

end Simulates

theorem execAll_concat (calls : List (KvOp × Nat)) (call : KvOp × Nat)
    : execAll (calls ++ [call]) = execAll.go (execAll calls) call := by
  unfold execAll
  rw [List.foldl_append]
  rfl

theorem accounted_execAll (calls : List (KvOp × Nat)) : (execAll calls).1.Accounted := by
  induction calls using List.reverseRecOn with
  | nil => exact HostState.accounted_new
  | append_singleton calls call ih =>
    rw [execAll_concat]
    exact ih.exec call.1 call.2

theorem simulates_execAll (calls : List (KvOp × Nat)) (t : Nat)
    (hclock : (calls.map Prod.snd ++ [t]).Pairwise (· ≤ ·))
    : Simulates (execAll calls).1 (execAll calls).2 t := by
  induction calls using List.reverseRecOn generalizing t with
  | nil =>
    intro key t' _
    rfl
  | append_singleton calls call ih =>
    rw [List.map_append, List.append_assoc] at hclock
    -- The relation holds when the last call is made, and from then on.
    have hprev : (calls.map Prod.snd ++ [call.2]).Pairwise (· ≤ ·) := by
      apply List.Pairwise.sublist _ hclock
      simp
    have hlast : call.2 ≤ t := by
      have := (List.pairwise_append.mp hclock).2.1
      simpa using this
    rw [execAll_concat]
    apply Simulates.mono _ hlast
    exact (ih call.2 hprev).exec call.1

end OpenRusty
