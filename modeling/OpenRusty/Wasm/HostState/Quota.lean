import OpenRusty.Wasm.HostState.ConcurrentLemmas

/-!
This module contains the quota of the concurrent KV calls. The admission test of a set reads the
counter before the insert and the accounting, so two sets that are admitted at once can overrun the
quota, and so can a set that credits itself bytes that have left the counter since it read them. A
run without such admissions keeps the quota in every state.
-/

namespace OpenRusty

namespace KvCall

def admitted (c : KvCall) : Nat :=
  match c with
  | .setInsert _ _ _ => 1
  | .setAccount _ _ => 1
  | _ => 0

def Fits (s : HostState) (owed : Nat) (c : KvCall) : Prop :=
  match c with
  | .setLoad _ _ _ released => released ≤ kvMaxTotalBytes
  | .setInsert key val _ =>
    (s.kv.erase key).weight entrySize + (key.length + val.length) ≤ kvMaxTotalBytes
      ∧ s.storedBytes + owed + (key.length + val.length) ≤ 2 * kvMaxTotalBytes
  | _ => True

theorem owesAdd_of_not_admitted {c : KvCall} (h : c.admitted = 0) : c.owesAdd = 0 := by
  cases c with
  | setAccount added removed => cases h
  | _ => rfl

theorem admitted_start (call : KvOp × Nat) : (start call).admitted = 0 := by
  rcases call with ⟨op, nowMs⟩
  cases op <;> rfl

theorem fits_start (s : HostState) (owed : Nat) (call : KvOp × Nat) : (start call).Fits s owed := by
  rcases call with ⟨op, nowMs⟩
  cases op <;> trivial

theorem Fits.mono {s s' : HostState} {owed owed' : Nat} {c : KvCall} (h : c.Fits s owed)
    (herase : ∀ key, (s'.kv.erase key).weight entrySize ≤ (s.kv.erase key).weight entrySize)
    (howed : s'.storedBytes + owed' ≤ s.storedBytes + owed)
    : c.Fits s' owed' := by
  cases c with
  | setLoad key val ttlMs released => exact h
  | setInsert key val ttlMs =>
    have hkey := herase key
    simp only [Fits] at h ⊢
    omega
  | _ => trivial

end KvCall

namespace HostState

theorem act_admission {sh : Sharding} {s s' : HostState} {c c' : KvCall} {nowMs : Nat}
    (h : s.act sh c nowMs = some (s', c'))
    : (∃ key val ttlMs, c = .setRead key val ttlMs ∧ s' = s
        ∧ c' = .setLoad key val ttlMs (s.kv.weightAt entrySize key))
        ∨
      (∃ key val ttlMs released, c = .setLoad key val ttlMs released ∧ s' = s
        ∧ kvSetVerdict key.length val.length (s.totalBytes - released) = true
        ∧ c' = .setInsert key val ttlMs)
        ∨
      (c'.admitted ≤ c.admitted ∧ ∀ t owed, c'.Fits t owed) := by
  cases c with
  | setRead key val ttlMs =>
    cases h
    left
    exact ⟨key, val, ttlMs, rfl, rfl, rfl⟩
  | setLoad key val ttlMs released =>
    right
    simp only [act] at h
    split at h
    . next hverdict =>
      cases h
      left
      exact ⟨key, val, ttlMs, released, rfl, rfl, hverdict, rfl⟩
    . cases h
      right
      simp [KvCall.admitted, KvCall.Fits]
  | returned answer => cases h
  | _ =>
    right
    right
    simp only [act] at h
    repeat' split at h
    all_goals
      cases h
      simp [KvCall.admitted, KvCall.Fits]

end HostState

namespace KvPool

/--
The condition on a step of a run: a set that is admitted is the only one between its admission and its
accounting, and what it credits itself is still in the map or at least still in the counter.
-/
def Isolated (p : KvPool) (e : KvEvent) : Prop :=
  match e with
  | .spawn _ => True
  | .step i _ =>
    match p.threads[i]? with
    | some (.setLoad key val _ released) =>
      kvSetVerdict key.length val.length (p.shared.totalBytes - released) = true →
        p.sum KvCall.admitted = 0
          ∧ released ≤ p.shared.kv.weightAt entrySize key + p.sum KvCall.owesSub
    | _ => True

instance (p : KvPool) (e : KvEvent) : Decidable (p.Isolated e) := by
  unfold Isolated
  split
  . exact inferInstance
  . split <;> exact inferInstance

theorem Isolated.of_setLoad {p : KvPool} {i nowMs : Nat} {key val : Bytes} {ttlMs : Int}
    {released : Nat} (h : p.Isolated (.step i nowMs))
    (hc : p.threads[i]? = some (.setLoad key val ttlMs released))
    (hverdict : kvSetVerdict key.length val.length (p.shared.totalBytes - released) = true)
    : p.sum KvCall.admitted = 0
        ∧
      released ≤ p.shared.kv.weightAt entrySize key + p.sum KvCall.owesSub := by
  simp only [Isolated, hc] at h
  exact h hverdict

structure WithinQuota (p : KvPool) : Prop where
  balanced : p.Balanced
  admitted_le : p.sum KvCall.admitted ≤ 1
  stored_le : p.shared.storedBytes ≤ kvMaxTotalBytes
  owed_le : p.shared.storedBytes + p.sum KvCall.owesSub ≤ 2 * kvMaxTotalBytes
  fits : ∀ (i : Nat) c, p.threads[i]? = some c → c.Fits p.shared (p.sum KvCall.owesSub)

theorem withinQuota_new : new.WithinQuota where
  balanced := balanced_new
  admitted_le := by decide
  stored_le := by decide
  owed_le := by decide
  fits := by
    intro i c hc
    cases hc

theorem WithinQuota.totalBytes_eq {p : KvPool} (h : p.WithinQuota) (hadm : p.sum KvCall.admitted = 0)
    : p.shared.totalBytes = p.shared.storedBytes + p.sum KvCall.owesSub := by
  have hadd : p.sum KvCall.owesAdd = 0 := by
    apply Pool.sum_eq_zero
    intro c hc
    apply KvCall.owesAdd_of_not_admitted
    obtain ⟨i, hi⟩ := List.mem_iff_getElem?.mp hc
    have := Pool.le_sum KvCall.admitted p hi
    omega
  have hbal := h.balanced.balanced
  have hlt := h.balanced.lt_word
  have howed := h.owed_le
  rw [hadd] at hbal
  simp only [kvMaxTotalBytes] at howed
  omega

theorem WithinQuota.spawn {p : KvPool} (h : p.WithinQuota) (call : KvOp × Nat)
    (hbal : Balanced { p with threads := p.threads ++ [KvCall.start call] })
    : WithinQuota { p with threads := p.threads ++ [KvCall.start call] } where
  balanced := hbal
  admitted_le := by
    rw [Pool.sum_spawn, KvCall.admitted_start]
    exact h.admitted_le
  stored_le := h.stored_le
  owed_le := by
    rw [Pool.sum_spawn, KvCall.owesSub_start]
    exact h.owed_le
  fits := by
    rw [Pool.sum_spawn, KvCall.owesSub_start]
    apply Pool.forall_concat
    . apply KvCall.fits_start
    . exact h.fits

section step

variable {sh : Sharding} {p : KvPool} {i nowMs : Nat} {c c' : KvCall} {s' : HostState}

theorem WithinQuota.admitted_act (h : p.WithinQuota) (hok : p.Isolated (.step i nowMs))
    (hc : p.threads[i]? = some c) (hact : p.shared.act sh c nowMs = some (s', c'))
    : p.sum KvCall.admitted + c'.admitted ≤ 1 + c.admitted := by
  have hle := h.admitted_le
  obtain ⟨key, val, ttlMs, rfl, -, rfl⟩ | ⟨key, val, ttlMs, released, rfl, -, hverdict, rfl⟩ | hother
    := HostState.act_admission hact
  . simp only [KvCall.admitted]
    omega
  . have hnone := (hok.of_setLoad hc hverdict).1
    simp only [KvCall.admitted]
    omega
  . omega

theorem WithinQuota.fits_admission (h : p.WithinQuota) (hok : p.Isolated (.step i nowMs))
    {key val : Bytes} {ttlMs : Int} {released : Nat}
    (hc : p.threads[i]? = some (.setLoad key val ttlMs released))
    (hverdict : kvSetVerdict key.length val.length (p.shared.totalBytes - released) = true)
    : (KvCall.setInsert key val ttlMs).Fits p.shared (p.sum KvCall.owesSub) := by
  obtain ⟨hnone, hreleased⟩ := hok.of_setLoad hc hverdict
  have hload : released ≤ kvMaxTotalBytes := h.fits i _ hc
  have htotal := h.totalBytes_eq hnone
  have hsplit := AList.weight_erase entrySize p.shared.kv key
  rw [kvSetVerdict_iff] at hverdict
  simp only [KvCall.Fits, HostState.storedBytes] at htotal hsplit ⊢
  omega

theorem WithinQuota.fits_act (h : p.WithinQuota) (hok : p.Isolated (.step i nowMs))
    (hc : p.threads[i]? = some c) (hact : p.shared.act sh c nowMs = some (s', c'))
    {owed : Nat} (howed : c.owesSub = 0 → c'.owesSub = 0 → owed = p.sum KvCall.owesSub)
    : c'.Fits s' owed := by
  obtain ⟨key, val, ttlMs, rfl, rfl, rfl⟩ | ⟨key, val, ttlMs, released, rfl, rfl, hverdict, rfl⟩
    | ⟨-, hfits⟩ := HostState.act_admission hact
  . have := AList.weightAt_le entrySize p.shared.kv key
    exact Nat.le_trans this h.stored_le
  . rw [howed rfl rfl]
    exact h.fits_admission hok hc hverdict
  . exact hfits s' owed

theorem stored_of_effect {s : HostState} {owed owed' : Nat} (heffect : s.Effect c s' c')
    (hfits : c.Fits s owed) (hstored : s.storedBytes ≤ kvMaxTotalBytes)
    (howed : s.storedBytes + owed ≤ 2 * kvMaxTotalBytes)
    (hsum : owed' + c.owesSub = owed + c'.owesSub) (hle : c.owesSub ≤ owed)
    : s'.storedBytes ≤ kvMaxTotalBytes ∧ s'.storedBytes + owed' ≤ 2 * kvMaxTotalBytes := by
  cases heffect with
  | quiet hkv htotal hadd hsub =>
    unfold HostState.storedBytes at hstored howed ⊢
    rw [hkv]
    omega
  | insert key val ttlMs nowMs hc hs' hc' =>
    have hins := HostState.storedBytes_insert s key
      { value := val, expiresAt := expiryOf ttlMs nowMs }
    have hsplit := AList.weight_erase entrySize s.kv key
    subst hc hs' hc'
    simp only [KvCall.Fits, KvCall.owesSub, entrySize, HostState.storedBytes] at *
    omega
  | remove removed htotal hstored' herase hadd hsub => omega
  | account hs' hadd hsub =>
    subst hs'
    rw [HostState.storedBytes_account]
    omega

theorem WithinQuota.fits_others (h : p.WithinQuota) (hc : p.threads[i]? = some c)
    (heffect : p.shared.Effect c s' c') {owed : Nat}
    (hsum : owed + c.owesSub = p.sum KvCall.owesSub + c'.owesSub)
    : ∀ (j : Nat) d, j ≠ i → p.threads[j]? = some d → d.Fits s' owed := by
  intro j d hne hd
  have hfits := h.fits j d hd
  cases heffect with
  | quiet hkv htotal hadd hsub =>
    apply hfits.mono
    . intro key
      rw [hkv]
    . unfold HostState.storedBytes
      rw [hkv]
      omega
  | insert key val ttlMs nowMs hins hs' hc' =>
    -- The inserting set is the only admitted one, so `d` is not about to insert.
    have hone := Pool.add_le_sum KvCall.admitted p hc hd hne
    have hle := h.admitted_le
    subst hins
    cases d with
    | setLoad key val ttlMs released => exact hfits
    | setInsert key val ttlMs =>
      simp only [KvCall.admitted] at hone
      omega
    | _ => trivial
  | remove removed htotal hstored herase hadd hsub =>
    apply hfits.mono herase
    omega
  | account hs' hadd hsub =>
    subst hs'
    apply hfits.mono
    . intro key
      rw [HostState.account_kv]
    . rw [HostState.storedBytes_account]
      omega

end step

theorem WithinQuota.step {sh : Sharding} {p q : KvPool} {e : KvEvent} (h : p.WithinQuota)
    (hok : p.Isolated e) (hstep : step sh p e = some q)
    : q.WithinQuota := by
  have hbal := h.balanced.step hstep
  obtain ⟨call, -, rfl⟩ | ⟨i, nowMs, c, s', c', rfl, hc, hact, rfl⟩ := Pool.step_cases _ _ hstep
  . exact h.spawn call hbal
  . have heffect := HostState.act_effect hact
    have hadm := Pool.sum_set KvCall.admitted p hc s' c'
    have hsub := Pool.sum_set KvCall.owesSub p hc s' c'
    have hsub_le := Pool.le_sum KvCall.owesSub p hc
    have hstored := stored_of_effect heffect (h.fits i c hc) h.stored_le h.owed_le hsub hsub_le
    refine ⟨hbal, ?_, hstored.1, hstored.2, ?_⟩
    . have := h.admitted_act hok hc hact
      omega
    . apply Pool.forall_set
      . apply h.fits_act hok hc hact
        intro hzero hzero'
        omega
      . exact h.fits_others hc heffect hsub

end KvPool

theorem kv_stored_le_of_isolated (sh : Sharding) (events : List KvEvent) (p : KvPool)
    (hok : Machine.Guarded (KvPool.step sh) KvPool.Isolated KvPool.new events)
    (hrun : Machine.run (KvPool.step sh) KvPool.new events = some p)
    : p.shared.storedBytes ≤ kvMaxTotalBytes := by
  have hinv : p.WithinQuota := by
    apply Machine.inv_of_run _ KvPool.withinQuota_new hok hrun
    intro p e q hp hok hstep
    exact hp.step hok hstep
  exact hinv.stored_le

def overwriteUnderSweep : List KvEvent :=
  [.spawn (.set [1] [7, 7] 5, 0), .step 0 0, .step 0 0, .step 0 0, .step 0 0,
    .spawn (.set [1] [8] 0, 9), .spawn (.sweep, 9), .step 1 9, .step 1 9, .step 2 9, .step 1 9,
    .step 2 9, .step 1 9]

theorem kv_stored_le_of_isolated_overwriteUnderSweep
    : ∃ p, Machine.run (KvPool.step oneShard) KvPool.new overwriteUnderSweep = some p
        ∧ p.shared.totalBytes = 2
        ∧ p.shared.storedBytes ≤ kvMaxTotalBytes := by
  have htotal : (Machine.run (KvPool.step oneShard) KvPool.new overwriteUnderSweep).map
      (fun p => p.shared.totalBytes) = some 2 := by
    decide +kernel
  obtain ⟨p, hrun, hp⟩ := Option.map_eq_some_iff.mp htotal
  refine ⟨p, hrun, hp, ?_⟩
  apply kv_stored_le_of_isolated oneShard overwriteUnderSweep p _ hrun
  decide +kernel

def admissionRace (key key' : Bytes) : List KvEvent :=
  [.spawn (.set key [] 0, 0), .spawn (.set key' [] 0, 0), .step 0 0, .step 0 0, .step 1 0,
    .step 1 0, .step 0 0, .step 1 0]

theorem run_admissionRace (sh : Sharding) {key key' : Bytes} (hne : key' ≠ key)
    (hkey : key.length ≤ kvMaxTotalBytes) (hkey' : key'.length ≤ kvMaxTotalBytes)
    : ∃ p, Machine.run (KvPool.step sh) KvPool.new (admissionRace key key') = some p
        ∧ p.shared.storedBytes = key.length + key'.length := by
  have hverdict : kvSetVerdict key.length 0 0 = true := by
    rw [kvSetVerdict_iff]
    simp [hkey]
  have hverdict' : kvSetVerdict key'.length 0 0 = true := by
    rw [kvSetVerdict_iff]
    simp [hkey']
  let e : KvEntry := { value := [], expiresAt := expiryOf 0 0 }
  let m : AList fun _ : Bytes => KvEntry := AList.singleton key e
  have hlook : m.lookup key' = none := by
    unfold m
    rw [← AList.insert_empty, AList.lookup_insert_ne hne]
    rfl
  refine ⟨{ shared := { kv := m.insert key' e, totalBytes := 0, cursors := ∅ }
            threads := [.setAccount key.length 0, .setAccount key'.length 0] }, ?_, ?_⟩
  . simp only [m, e] at hlook
    simp [admissionRace, Machine.run, KvPool.step, Pool.step, KvPool.new, HostState.new,
      KvCall.start, HostState.act, hverdict, hverdict', HostState.insert, AList.weightAt, hlook, m, e]
  . have hfirst : m.weight entrySize = key.length := by rfl
    have herase := AList.weight_erase entrySize m key'
    rw [AList.weightAt_of_lookup_eq_none hlook] at herase
    have hsize : entrySize key' e = key'.length := by rfl
    unfold HostState.storedBytes
    rw [AList.weight_insert]
    omega

theorem kv_quota_exceeded
    : ∃ p, Machine.run (KvPool.step oneShard) KvPool.new
        (admissionRace (List.replicate 700000 0) (List.replicate 700001 0)) = some p
      ∧ kvMaxTotalBytes < p.shared.storedBytes := by
  have hlen : (List.replicate 700000 (0 : UInt8)).length = 700000 := List.length_replicate
  have hlen' : (List.replicate 700001 (0 : UInt8)).length = 700001 := List.length_replicate
  generalize List.replicate 700000 (0 : UInt8) = key at *
  generalize List.replicate 700001 (0 : UInt8) = key' at *
  have hne : key' ≠ key := by
    intro heq
    rw [heq, hlen] at hlen'
    omega
  obtain ⟨p, hrun, hstored⟩ := run_admissionRace oneShard hne
    (by rw [hlen]; decide) (by rw [hlen']; decide)
  refine ⟨p, hrun, ?_⟩
  rw [hstored, hlen, hlen']
  decide

end OpenRusty
