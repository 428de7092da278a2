import OpenRusty.Wasm.HostState.Concurrent

/-!
This module contains the accounting of the concurrent KV calls. A call that has changed the map but
not yet moved the counter owes the difference; the counter plus what is still to be added is, modulo
the word size, what the map holds plus what is still to be subtracted.
-/

namespace OpenRusty

namespace KvCall

def owesAdd (c : KvCall) : Nat :=
  match c with
  | .setAccount added _ => added
  | _ => 0

def owesSub (c : KvCall) : Nat :=
  match c with
  | .setAccount _ removed => removed
  | .delAccount removed => removed
  | .getAccount removed => removed
  | .sweepShard _ _ _ expiredBytes => expiredBytes
  | _ => 0

@[simp]
theorem owesAdd_start (call : KvOp × Nat) : (start call).owesAdd = 0 := by
  rcases call with ⟨op, nowMs⟩
  cases op with
  | set key val ttlMs => rfl
  | del key => rfl
  | get key => rfl
  | scan pre => rfl
  | sweep => rfl

@[simp]
theorem owesSub_start (call : KvOp × Nat) : (start call).owesSub = 0 := by
  rcases call with ⟨op, nowMs⟩
  cases op with
  | set key val ttlMs => rfl
  | del key => rfl
  | get key => rfl
  | scan pre => rfl
  | sweep => rfl

end KvCall

namespace HostState

inductive Effect (s : HostState) (c : KvCall) (s' : HostState) (c' : KvCall) : Prop where
  | quiet (hkv : s'.kv = s.kv) (htotal : s'.totalBytes = s.totalBytes)
      (hadd : c'.owesAdd = c.owesAdd) (hsub : c'.owesSub = c.owesSub)
  | insert (key val : Bytes) (ttlMs : Int) (nowMs : Nat) (hc : c = .setInsert key val ttlMs)
      (hs' : s' = (s.insert key { value := val, expiresAt := expiryOf ttlMs nowMs }).2)
      (hc' : c' = .setAccount (key.length + val.length) (s.kv.weightAt entrySize key))
  | remove (removed : Nat) (htotal : s'.totalBytes = s.totalBytes)
      (hstored : s'.storedBytes + removed = s.storedBytes)
      (herase : ∀ key, (s'.kv.erase key).weight entrySize ≤ (s.kv.erase key).weight entrySize)
      (hadd : c'.owesAdd = c.owesAdd) (hsub : c'.owesSub = c.owesSub + removed)
  | account (hs' : s' = s.account c.owesAdd c.owesSub) (hadd : c'.owesAdd = 0)
      (hsub : c'.owesSub = 0)

theorem effect_removeIf {s : HostState} {key : Bytes} {p : KvEntry → Bool} {c : KvCall}
    {gone : Nat → KvCall} {kept : KvCall} (hadd : c.owesAdd = 0) (hsub : c.owesSub = 0)
    (hgone : ∀ n, (gone n).owesAdd = 0 ∧ (gone n).owesSub = n)
    (hkept : kept.owesAdd = 0 ∧ kept.owesSub = 0) {s' : HostState} {c' : KvCall}
    (h : (match s.removeIf key p with
      | (some e, s) => some (s, gone (entrySize key e))
      | (none, s) => some (s, kept)) = some (s', c'))
    : Effect s c s' c' := by
  cases removeIf_cases s key p with
  | inl heq =>
    rw [heq.1] at h
    cases h
    apply Effect.quiet
    . rfl
    . rfl
    . rw [hadd, hkept.1]
    . rw [hsub, hkept.2]
  | inr hsome =>
    obtain ⟨e, he, -, heq⟩ := hsome
    rw [heq] at h
    cases h
    apply Effect.remove (entrySize key e)
    . rfl
    . apply storedBytes_erase he
    . intro k
      apply AList.weight_erase_erase_le
    . rw [hadd, (hgone _).1]
    . rw [hsub, (hgone _).2]
      omega

theorem act_effect {sh : Sharding} {s s' : HostState} {c c' : KvCall} {nowMs : Nat}
    (h : s.act sh c nowMs = some (s', c'))
    : Effect s c s' c' := by
  cases c with
  | setRead key val ttlMs =>
    cases h
    apply Effect.quiet <;> rfl
  | setLoad key val ttlMs released =>
    simp only [act] at h
    split at h
    all_goals
      cases h
      apply Effect.quiet <;> rfl
  | setInsert key val ttlMs =>
    cases h
    exact Effect.insert key val ttlMs nowMs rfl rfl rfl
  | setAccount added removed =>
    cases h
    apply Effect.account <;> rfl
  | delRemove key =>
    apply effect_removeIf rfl rfl _ _ h
    . intro n
      exact ⟨rfl, rfl⟩
    . exact ⟨rfl, rfl⟩
  | delAccount removed =>
    cases h
    apply Effect.account <;> rfl
  | getLookup key =>
    simp only [act] at h
    split at h
    . split at h
      all_goals
        cases h
        apply Effect.quiet <;> rfl
    . cases h
      apply Effect.quiet <;> rfl
  | getEvict key nowMs =>
    apply effect_removeIf rfl rfl _ _ h
    . intro n
      exact ⟨rfl, rfl⟩
    . exact ⟨rfl, rfl⟩
  | getAccount removed =>
    cases h
    apply Effect.account <;> rfl
  | scanShard pre nowMs shard out =>
    simp only [act] at h
    split at h
    all_goals
      cases h
      apply Effect.quiet <;> rfl
  | sweepShard nowMs shard removed expiredBytes =>
    simp only [act] at h
    split at h
    . cases h
      apply Effect.remove
      . rfl
      . apply storedBytes_retainLive
      . intro k
        apply AList.weight_erase_retain_le
      . rfl
      . rfl
    . cases h
      apply Effect.account <;> rfl
  | sweepCursors nowMs removed =>
    cases h
    apply Effect.quiet <;> rfl
  | returned answer => cases h

theorem account_lt_word (s : HostState) (added removed : Nat) (h : s.totalBytes < 2 ^ 64)
    : (s.account added removed).totalBytes < 2 ^ 64 := by
  unfold account
  split
  . apply Nat.mod_lt
    decide
  . split
    . apply Nat.mod_lt
      decide
    . exact h

theorem Effect.lt_word {s s' : HostState} {c c' : KvCall} (h : Effect s c s' c')
    (hlt : s.totalBytes < 2 ^ 64)
    : s'.totalBytes < 2 ^ 64 := by
  cases h with
  | quiet hkv htotal hadd hsub => omega
  | insert key val ttlMs nowMs hc hs' hc' =>
    subst hs'
    exact hlt
  | remove removed htotal hstored herase hadd hsub => omega
  | account hs' hadd hsub =>
    subst hs'
    exact account_lt_word _ _ _ hlt

theorem Effect.balanced {s s' : HostState} {c c' : KvCall} (h : Effect s c s' c') {x y : Nat}
    (hbal : (s.totalBytes + (c.owesAdd + x)) % 2 ^ 64 = (s.storedBytes + (c.owesSub + y)) % 2 ^ 64)
    : (s'.totalBytes + (c'.owesAdd + x)) % 2 ^ 64
        =
      (s'.storedBytes + (c'.owesSub + y)) % 2 ^ 64 := by
  cases h with
  | quiet hkv htotal hadd hsub =>
    unfold storedBytes at hbal ⊢
    rw [hkv, htotal, hadd, hsub]
    exact hbal
  | insert key val ttlMs nowMs hc hs' hc' =>
    have hstored := storedBytes_insert s key { value := val, expiresAt := expiryOf ttlMs nowMs }
    subst hc hs' hc'
    simp only [KvCall.owesAdd, KvCall.owesSub, insert_totalBytes, entrySize] at hbal hstored ⊢
    omega
  | remove removed htotal hstored herase hadd hsub => omega
  | account hs' hadd hsub =>
    have hmod := totalBytes_account_mod s c.owesAdd c.owesSub x
    subst hs'
    rw [hadd, hsub, storedBytes_account]
    omega

end HostState

namespace KvPool

structure Balanced (p : KvPool) : Prop where
  lt_word : p.shared.totalBytes < 2 ^ 64
  balanced : (p.shared.totalBytes + p.sum KvCall.owesAdd) % 2 ^ 64
    = (p.shared.storedBytes + p.sum KvCall.owesSub) % 2 ^ 64

theorem balanced_new : new.Balanced where
  lt_word := by decide
  balanced := by rfl

theorem Balanced.step {sh : Sharding} {p q : KvPool} {e : KvEvent} (h : p.Balanced)
    (hstep : step sh p e = some q)
    : q.Balanced := by
  obtain ⟨call, -, rfl⟩ | ⟨i, nowMs, c, s', c', -, hc, hact, rfl⟩ := Pool.step_cases _ _ hstep
  . refine ⟨h.lt_word, ?_⟩
    rw [Pool.sum_spawn, Pool.sum_spawn, KvCall.owesAdd_start, KvCall.owesSub_start]
    exact h.balanced
  . have heffect := HostState.act_effect hact
    refine ⟨heffect.lt_word h.lt_word, ?_⟩
    have hadd := Pool.sum_set KvCall.owesAdd p hc s' c'
    have hsub := Pool.sum_set KvCall.owesSub p hc s' c'
    have hadd_le := Pool.le_sum KvCall.owesAdd p hc
    have hsub_le := Pool.le_sum KvCall.owesSub p hc
    have hbal := heffect.balanced (x := p.sum KvCall.owesAdd - c.owesAdd)
      (y := p.sum KvCall.owesSub - c.owesSub)
    have := h.balanced
    dsimp
    omega

end KvPool

theorem kv_counter_exact_at_rest (sh : Sharding) (events : List KvEvent) (p : KvPool)
    (hrun : Machine.run (KvPool.step sh) KvPool.new events = some p)
    (hrest : ∀ c ∈ p.threads, c.isReturned = true)
    : p.shared.totalBytes = p.shared.storedBytes % 2 ^ 64 := by
  have hinv : p.Balanced := by
    apply Machine.inv_of_run_all _ KvPool.balanced_new hrun
    intro p e q hp hstep
    exact hp.step hstep
  have hadd : p.sum KvCall.owesAdd = 0 := by
    apply Pool.sum_eq_zero
    intro c hc
    have := hrest c hc
    cases c with
    | returned answer => rfl
    | _ => cases this
  have hsub : p.sum KvCall.owesSub = 0 := by
    apply Pool.sum_eq_zero
    intro c hc
    have := hrest c hc
    cases c with
    | returned answer => rfl
    | _ => cases this
  have hbal := hinv.balanced
  have hlt := hinv.lt_word
  rw [hadd, hsub] at hbal
  omega

def overwriteRace : List KvEvent :=
  [.spawn (.set [1] [7, 7] 5, 0), .step 0 0, .step 0 0, .step 0 0, .spawn (.set [1] [8] 0, 9),
    .spawn (.sweep, 9), .step 1 9, .step 1 9, .step 1 9, .step 0 9, .step 2 9, .step 2 9, .step 2 9,
    .step 1 9]

theorem kv_counter_exact_at_rest_overwriteRace
    : ∃ p, Machine.run (KvPool.step oneShard) KvPool.new overwriteRace = some p
        ∧ p.threads = [.returned (.done true), .returned (.done true), .returned (.count 0)]
        ∧ p.shared.totalBytes = p.shared.storedBytes % 2 ^ 64 := by
  have hthreads : (Machine.run (KvPool.step oneShard) KvPool.new overwriteRace).map Pool.threads
      = some [.returned (.done true), .returned (.done true), .returned (.count 0)] := by
    decide +kernel
  obtain ⟨p, hrun, hp⟩ := Option.map_eq_some_iff.mp hthreads
  refine ⟨p, hrun, hp, ?_⟩
  apply kv_counter_exact_at_rest oneShard overwriteRace p hrun
  rw [hp]
  decide

end OpenRusty
