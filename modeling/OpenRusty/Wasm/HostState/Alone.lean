import OpenRusty.Wasm.HostState.Concurrent

/-!
This module contains the connection between the KV calls and their atomic steps: a call whose steps are
not interleaved with those of others does what the call does as a whole. The calls that follow each other
are then those of an ideal timed map, taken as wholes or step by step.
-/

namespace OpenRusty

variable {sh : Sharding} {nowMs : Nat}

def Alone (sh : Sharding) (nowMs : Nat) (x y : HostState × KvCall) : Prop :=
  ∃ n, Machine.run (KvPool.step sh) { shared := x.1, threads := [x.2] }
    (List.replicate n (.step 0 nowMs)) = some { shared := y.1, threads := [y.2] }

namespace Alone

theorem refl (x : HostState × KvCall) : Alone sh nowMs x x := by
  exact ⟨0, rfl⟩

theorem head {x y z : HostState × KvCall} (hact : HostState.act sh x.1 x.2 nowMs = some y)
    (h : Alone sh nowMs y z)
    : Alone sh nowMs x z := by
  obtain ⟨n, hn⟩ := h
  refine ⟨n + 1, ?_⟩
  have hstep : KvPool.step sh { shared := x.1, threads := [x.2] } (.step 0 nowMs)
      = some { shared := y.1, threads := [y.2] } := by
    simp [KvPool.step, Pool.step, hact]
  rw [List.replicate_succ, Machine.run_cons, hstep]
  exact hn

theorem kvSet (s : HostState) (key val : Bytes) (ttlMs : Int)
    : Alone sh nowMs (s, .setRead key val ttlMs)
        ((s.kvSet key val ttlMs nowMs).2, .returned (.done (s.kvSet key val ttlMs nowMs).1)) := by
  apply head rfl
  unfold HostState.kvSet
  dsimp only
  split
  . next hverdict =>
    apply head (y := (s, .setInsert key val ttlMs))
    . exact if_pos hverdict
    . apply head rfl
      apply head rfl
      apply refl
  . next hverdict =>
    apply head (y := (s, .returned (.done false)))
    . exact if_neg hverdict
    . apply refl

theorem kvDel (s : HostState) (key : Bytes)
    : Alone sh nowMs (s, .delRemove key) ((s.kvDel key).2, .returned (.done (s.kvDel key).1)) := by
  unfold HostState.kvDel
  cases hremove : s.removeIf key fun _ => true with
  | mk removed s' =>
    cases removed with
    | none =>
      apply head (y := (s', .returned (.done false)))
      . simp [HostState.act, hremove]
      . apply refl
    | some e =>
      apply head (y := (s', .delAccount (entrySize key e)))
      . simp [HostState.act, hremove]
      . apply head rfl
        apply refl

theorem kvGet_evict (s : HostState) (key : Bytes)
    : Alone sh nowMs (s, .getEvict key nowMs)
        ((HostState.kvGetWith.evict s key nowMs : Option Bytes × HostState).2,
          .returned (.value (HostState.kvGetWith.evict s key nowMs : Option Bytes × HostState).1)) := by
  unfold HostState.kvGetWith.evict
  cases hremove : s.removeIf key fun e => isExpired e.expiresAt nowMs with
  | mk removed s' =>
    cases removed with
    | none =>
      apply head (y := (s', .returned (.value none)))
      . simp [HostState.act, hremove]
      . apply refl
    | some e =>
      apply head (y := (s', .getAccount (entrySize key e)))
      . simp [HostState.act, hremove]
      . apply head rfl
        apply refl

theorem kvGet (s : HostState) (key : Bytes)
    : Alone sh nowMs (s, .getLookup key)
        ((s.kvGet key nowMs).2, .returned (.value (s.kvGet key nowMs).1)) := by
  unfold HostState.kvGet HostState.kvGetWith
  cases hlookup : s.kv.lookup key with
  | none =>
    apply head (y := (s, .getEvict key nowMs))
    . simp [HostState.act, hlookup]
    . apply kvGet_evict
  | some e =>
    dsimp only
    split
    . next hexpired =>
      apply head (y := (s, .getEvict key nowMs))
      . simp [HostState.act, hlookup, hexpired]
      . apply kvGet_evict
    . next hexpired =>
      apply head (y := (s, .returned (.value (some e.value))))
      . simp [HostState.act, hlookup, hexpired]
      . apply refl

section sweep

def expiredBelow (sh : Sharding) (nowMs shard : Nat) (key : Bytes) (e : KvEntry) : Bool :=
  decide (sh.shardOf key < shard) && isExpired e.expiresAt nowMs

def sweptBelow (sh : Sharding) (nowMs shard : Nat) (s : HostState) : HostState :=
  { s with kv := s.kv.retain fun key e => !expiredBelow sh nowMs shard key e }

def sweepAt (sh : Sharding) (nowMs shard : Nat) (s : HostState) : HostState × KvCall :=
  (sweptBelow sh nowMs shard s,
    .sweepShard nowMs shard (s.kv.retain (expiredBelow sh nowMs shard)).entries.length
      ((s.kv.retain (expiredBelow sh nowMs shard)).weight entrySize))

theorem expiredBelow_succ (shard : Nat) (key : Bytes) (e : KvEntry)
    : expiredBelow sh nowMs (shard + 1) key e
        =
      (expiredBelow sh nowMs shard key e
        || (sh.shardOf key == shard && isExpired e.expiresAt nowMs)) := by
  unfold expiredBelow
  rw [← Bool.and_or_distrib_right]
  congr 1
  rw [Bool.eq_iff_iff]
  simp only [decide_eq_true_eq, Bool.or_eq_true, beq_iff_eq]
  omega

def expiredIn (sh : Sharding) (nowMs shard : Nat) (key : Bytes) (e : KvEntry) : Bool :=
  sh.shardOf key == shard && isExpired e.expiresAt nowMs

theorem expiredBelow_of_expiredIn {shard : Nat} {key : Bytes} {e : KvEntry}
    (h : expiredIn sh nowMs shard key e = true)
    : expiredBelow sh nowMs shard key e = false := by
  unfold expiredIn at h
  unfold expiredBelow
  simp only [Bool.and_eq_true, beq_iff_eq] at h
  simp [h.1]

theorem weight_expiredBelow_succ (f : Bytes → KvEntry → Nat) (shard : Nat) (s : HostState)
    : (s.kv.retain (expiredBelow sh nowMs (shard + 1))).weight f
        =
      (s.kv.retain (expiredBelow sh nowMs shard)).weight f
        + (s.kv.retain (expiredIn sh nowMs shard)).weight f := by
  rw [← AList.weight_retain_or]
  . congr 2
    funext key e
    apply expiredBelow_succ
  . intro key e h
    exact expiredBelow_of_expiredIn h

theorem retainLive_sweptBelow (shard : Nat) (s : HostState)
    : (sweptBelow sh nowMs shard s).retainLive (fun key => sh.shardOf key == shard) nowMs
        =
      ((s.kv.retain (expiredIn sh nowMs shard)).entries.length,
        (s.kv.retain (expiredIn sh nowMs shard)).weight entrySize,
        sweptBelow sh nowMs (shard + 1) s) := by
  have hexpired : ((sweptBelow sh nowMs shard s).kv.retain (expiredIn sh nowMs shard))
      = s.kv.retain (expiredIn sh nowMs shard) := by
    unfold sweptBelow
    rw [AList.retain_retain]
    congr 1
    funext key e
    cases hin : expiredIn sh nowMs shard key e with
    | true => simp [expiredBelow_of_expiredIn hin]
    | false => simp
  have hlive : ((sweptBelow sh nowMs shard s).kv.retain fun key e => !expiredIn sh nowMs shard key e)
      = (sweptBelow sh nowMs (shard + 1) s).kv := by
    unfold sweptBelow
    rw [AList.retain_retain]
    dsimp only
    congr 1
    funext key e
    rw [expiredBelow_succ, Bool.not_or]
    rfl
  unfold HostState.retainLive
  change (((sweptBelow sh nowMs shard s).kv.retain (expiredIn sh nowMs shard)).entries.length,
    ((sweptBelow sh nowMs shard s).kv.retain (expiredIn sh nowMs shard)).weight entrySize,
    { sweptBelow sh nowMs shard s with
      kv := (sweptBelow sh nowMs shard s).kv.retain fun key e => !expiredIn sh nowMs shard key e }) = _
  rw [hexpired, hlive]
  rfl

theorem act_sweepAt {shard : Nat} (h : shard < sh.count) (s : HostState)
    : HostState.act sh (sweepAt sh nowMs shard s).1 (sweepAt sh nowMs shard s).2 nowMs
        =
      some (sweepAt sh nowMs (shard + 1) s) := by
  unfold sweepAt HostState.act
  dsimp only
  rw [if_pos h, retainLive_sweptBelow]
  simp only [AList.length_entries, weight_expiredBelow_succ]

theorem sweep_go (s : HostState) {shard : Nat} (h : shard ≤ sh.count)
    : Alone sh nowMs (sweepAt sh nowMs shard s) ((s.sweep nowMs).2, .returned (.count (s.sweep nowMs).1)) := by
  induction hk : sh.count - shard generalizing shard with
  | zero =>
    have hall : expiredBelow sh nowMs shard = fun _ e => isExpired e.expiresAt nowMs := by
      funext key e
      have := sh.shardOf_lt key
      simp [expiredBelow, show sh.shardOf key < shard by omega]
    apply head (y := ((sweptBelow sh nowMs shard s).account 0
      ((s.kv.retain (expiredBelow sh nowMs shard)).weight entrySize),
      .sweepCursors nowMs (s.kv.retain (expiredBelow sh nowMs shard)).entries.length))
    . exact if_neg (by omega)
    . apply head rfl
      unfold sweptBelow
      rw [hall]
      apply refl
  | succ k ih =>
    apply head (act_sweepAt (by omega) s)
    apply ih
    . omega
    . omega

theorem sweep (s : HostState)
    : Alone sh nowMs (s, .sweepShard nowMs 0 0 0)
        ((s.sweep nowMs).2, .returned (.count (s.sweep nowMs).1)) := by
  have hstart : sweepAt sh nowMs 0 s = (s, .sweepShard nowMs 0 0 0) := by
    simp [sweepAt, sweptBelow, expiredBelow, AList.retain, AList.weight]
  rw [← hstart]
  apply sweep_go
  omega

end sweep

section scan

def foundBelow (sh : Sharding) (pre : Bytes) (nowMs shard : Nat) (s : HostState)
    : List (Bytes × Bytes) :=
  (s.kv.entries.filter fun e => decide (sh.shardOf e.1 < shard)
    && (pre.isPrefixOf e.1 && !isExpired e.2.expiresAt nowMs)).map fun e => (e.1, e.2.value)

def foundIn (sh : Sharding) (pre : Bytes) (nowMs shard : Nat) (s : HostState)
    : List (Bytes × Bytes) :=
  (s.kv.entries.filter fun e => sh.shardOf e.1 == shard
    && (pre.isPrefixOf e.1 && !isExpired e.2.expiresAt nowMs)).map fun e => (e.1, e.2.value)

theorem foundBelow_succ (pre : Bytes) (shard : Nat) (s : HostState)
    : (foundBelow sh pre nowMs shard s ++ foundIn sh pre nowMs shard s).Perm
        (foundBelow sh pre nowMs (shard + 1) s) := by
  unfold foundBelow foundIn
  rw [← List.map_append]
  apply List.Perm.map
  have hsplit := List.filter_append_perm (fun e => decide (sh.shardOf e.1 < shard))
    (s.kv.entries.filter fun e => decide (sh.shardOf e.1 < shard + 1)
      && (pre.isPrefixOf e.1 && !isExpired e.2.expiresAt nowMs))
  rw [List.filter_filter, List.filter_filter] at hsplit
  have hbelow (e : (_ : Bytes) × KvEntry)
      : (decide (sh.shardOf e.1 < shard) && (decide (sh.shardOf e.1 < shard + 1)
          && (pre.isPrefixOf e.1 && !isExpired e.2.expiresAt nowMs)))
        = (decide (sh.shardOf e.1 < shard)
          && (pre.isPrefixOf e.1 && !isExpired e.2.expiresAt nowMs)) := by
    by_cases hlt : sh.shardOf e.1 < shard
    . simp [hlt, show sh.shardOf e.1 < shard + 1 by omega]
    . simp [hlt]
  have hin (e : (_ : Bytes) × KvEntry)
      : (!decide (sh.shardOf e.1 < shard) && (decide (sh.shardOf e.1 < shard + 1)
          && (pre.isPrefixOf e.1 && !isExpired e.2.expiresAt nowMs)))
        = (sh.shardOf e.1 == shard
          && (pre.isPrefixOf e.1 && !isExpired e.2.expiresAt nowMs)) := by
    rw [← Bool.and_assoc]
    congr 1
    rw [Bool.eq_iff_iff]
    simp only [Bool.and_eq_true, Bool.not_eq_true', decide_eq_false_iff_not, decide_eq_true_eq,
      beq_iff_eq]
    omega
  simpa only [hbelow, hin] using hsplit

theorem insertionSort_eq_kvScan {pre : Bytes} {s : HostState} {out : List (Bytes × Bytes)}
    (hperm : out.Perm (foundBelow sh pre nowMs sh.count s))
    : out.insertionSort (fun a b => a.1 ≤ b.1) = s.kvScan pre nowMs := by
  have hall : foundBelow sh pre nowMs sh.count s
      = (s.kv.entries.filter fun e => pre.isPrefixOf e.1 && !isExpired e.2.expiresAt nowMs).map
          fun e => (e.1, e.2.value) := by
    simp [foundBelow, sh.shardOf_lt]
  have hscan : (out.insertionSort fun a b => a.1 ≤ b.1).Perm (s.kvScan pre nowMs) := by
    apply (List.perm_insertionSort _ _).trans
    apply hperm.trans
    rw [hall]
    exact (List.perm_insertionSort _ _).symm
  have hsorted : (out.insertionSort fun a b => a.1 ≤ b.1).Pairwise fun a b => a.1 ≤ b.1 := by
    apply List.pairwise_insertionSort
  have hsorted' : (s.kvScan pre nowMs).Pairwise fun a b => a.1 ≤ b.1 := by
    apply List.pairwise_insertionSort
  apply List.Perm.eq_of_pairwise _ hsorted hsorted' hscan
  rintro ⟨key, val⟩ ⟨key', val'⟩ hmem hmem' hle hle'
  have hkey : key = key' := Std.le_antisymm hle hle'
  subst hkey
  have hlive := ((s.mem_kvScan pre nowMs key val).mp (hscan.mem_iff.mp hmem)).2
  rw [((s.mem_kvScan pre nowMs key val').mp hmem').2] at hlive
  cases hlive
  rfl

theorem scan_go (s : HostState) (pre : Bytes) {shard : Nat} {out : List (Bytes × Bytes)}
    (h : shard ≤ sh.count) (hperm : out.Perm (foundBelow sh pre nowMs shard s))
    : Alone sh nowMs (s, .scanShard pre nowMs shard out)
        (s, .returned (.pairs (s.kvScan pre nowMs))) := by
  induction hk : sh.count - shard generalizing shard out with
  | zero =>
    have heq : shard = sh.count := by omega
    subst heq
    rw [← insertionSort_eq_kvScan hperm]
    apply head (y := (s, .returned (.pairs (out.insertionSort fun a b => a.1 ≤ b.1))))
    . exact if_neg (by omega)
    . apply refl
  | succ k ih =>
    apply head (y := (s, .scanShard pre nowMs (shard + 1) (out ++ foundIn sh pre nowMs shard s)))
    . exact if_pos (by omega)
    . apply ih
      . omega
      . exact (hperm.append_right _).trans (foundBelow_succ pre shard s)
      . omega

end scan

end Alone

theorem exec_alone (sh : Sharding) (s : HostState) (op : KvOp) (nowMs : Nat)
    : Alone sh nowMs (s, KvCall.start (op, nowMs))
        ((s.exec op nowMs).2, .returned (s.exec op nowMs).1) := by
  cases op with
  | set key val ttlMs => apply Alone.kvSet
  | del key => apply Alone.kvDel
  | get key => apply Alone.kvGet
  | scan pre =>
    apply Alone.scan_go
    . omega
    . simp [Alone.foundBelow]
  | sweep => apply Alone.sweep

theorem kv_refines_timedMap (sh : Sharding) (calls : List (KvOp × Nat)) (op : KvOp) (nowMs : Nat)
    (hclock : (calls.map Prod.snd ++ [nowMs]).Pairwise (· ≤ ·))
    : (execAll calls).2.Answers op nowMs ((execAll calls).1.exec op nowMs).1
        ∧
      (∀ key e, ((execAll calls).1.exec op nowMs).2.kv.lookup key = some e
        → e.value.length ≤ kvMaxValueBytes)
        ∧
      ((execAll calls).1.exec op nowMs).2.storedBytes ≤ kvMaxTotalBytes
        ∧
      ((execAll calls).1.exec op nowMs).2.totalBytes
        = ((execAll calls).1.exec op nowMs).2.storedBytes
        ∧
      (∀ key val ttlMs, op = .set key val ttlMs
        → ((execAll calls).1.exec op nowMs).1 = .done false
        → ((execAll calls).1.exec op nowMs).2 = (execAll calls).1)
        ∧
      Alone sh nowMs ((execAll calls).1, KvCall.start (op, nowMs))
        (((execAll calls).1.exec op nowMs).2, .returned ((execAll calls).1.exec op nowMs).1) := by
  have hacc := (accounted_execAll calls).exec op nowMs
  refine ⟨?_, hacc.value_le, hacc.total_le, hacc.counted, ?_, ?_⟩
  . exact (simulates_execAll calls nowMs hclock).answers op
  . intro key val ttlMs hop hrefused
    subst hop
    cases HostState.kvSet_cases (execAll calls).1 key val ttlMs nowMs with
    | inl heq => simp [HostState.exec, heq]
    | inr hset =>
      obtain ⟨-, -, heq⟩ := hset
      simp [HostState.exec, heq] at hrefused
  . apply exec_alone

theorem kv_refines_timedMap_at_expiry
    : ((execAll [(.set [1] [2] 10, 0), (.set [3] [4] 0, 4), (.sweep, 9)]).1.exec (.get [1]) 10).1
        = .value none
        ∧
      (execAll [(.set [1] [2] 10, 0), (.set [3] [4] 0, 4), (.sweep, 9)]).2.Answers (.get [1]) 10
        ((execAll [(.set [1] [2] 10, 0), (.set [3] [4] 0, 4), (.sweep, 9)]).1.exec (.get [1]) 10).1
    := by
  refine ⟨by decide, ?_⟩
  exact (kv_refines_timedMap oneShard _ _ _ (by decide)).1

end OpenRusty
