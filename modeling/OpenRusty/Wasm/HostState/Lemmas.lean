import OpenRusty.Wasm.HostState.Basic

/-!
This module contains the theory of the single steps of the KV store: what each of them does to the
map, to the bytes the map holds, to the byte counter and to the values that are live at some instant.
-/

namespace OpenRusty

theorem isExpired_mono {expiresAt t t' : Nat} (h : isExpired expiresAt t = true) (ht : t ≤ t')
    : isExpired expiresAt t' = true := by
  simp only [isExpired, Bool.and_eq_true, decide_eq_true_eq] at h ⊢
  refine ⟨h.1, ?_⟩
  omega

theorem kvSetVerdict_iff {keyLen valLen totalBytes : Nat}
    : kvSetVerdict keyLen valLen totalBytes = true
        ↔
      valLen ≤ kvMaxValueBytes ∧ totalBytes + (keyLen + valLen) ≤ kvMaxTotalBytes := by
  unfold kvSetVerdict
  rw [Bool.and_eq_true, decide_eq_true_eq, decide_eq_true_eq]
  rw [Word.saturatingAdd_le_iff]
  decide

namespace HostState

@[simp]
theorem account_kv (s : HostState) (added removed : Nat) : (s.account added removed).kv = s.kv := by
  unfold account
  split
  . rfl
  . split
    . rfl
    . rfl

@[simp]
theorem storedBytes_account (s : HostState) (added removed : Nat)
    : (s.account added removed).storedBytes = s.storedBytes := by
  simp [storedBytes]

@[simp]
theorem retainCursors_kv (s : HostState) (nowMs : Nat) : (s.retainCursors nowMs).2.kv = s.kv := by
  rfl

theorem totalBytes_account {s : HostState} {added removed : Nat}
    (hle : removed ≤ s.totalBytes + added) (hlt : s.totalBytes + added < 2 ^ 64)
    : (s.account added removed).totalBytes = s.totalBytes + added - removed := by
  unfold account
  split
  . dsimp
    rw [Word.wrappingAdd_eq]
    . omega
    . omega
  . split
    . dsimp
      rw [Word.wrappingSub_eq]
      . omega
      . omega
      . omega
    . omega

theorem totalBytes_account_mod (s : HostState) (added removed c : Nat)
    : ((s.account added removed).totalBytes + (removed + c)) % 2 ^ 64
        =
      (s.totalBytes + (added + c)) % 2 ^ 64 := by
  unfold account
  split
  . have h := Word.wrappingAdd_mod 64 s.totalBytes (added - removed) (removed + c)
    have : s.totalBytes + (added - removed) + (removed + c) = s.totalBytes + (added + c) := by omega
    rwa [this] at h
  . split
    . have h := Word.wrappingSub_mod 64 s.totalBytes (removed - added) (added + c)
      have : removed - added + (added + c) = removed + c := by omega
      rwa [this] at h
    . have : removed = added := by omega
      rw [this]

section insert

variable (s : HostState) (key : Bytes) (e : KvEntry)

@[simp]
theorem insert_totalBytes : (s.insert key e).2.totalBytes = s.totalBytes := by
  rfl

theorem lookup_insert (k : Bytes)
    : (s.insert key e).2.kv.lookup k = if k = key then some e else s.kv.lookup k := by
  unfold insert
  split
  . next h =>
    subst h
    apply AList.lookup_insert
  . next h =>
    apply AList.lookup_insert_ne
    exact h

theorem storedBytes_insert
    : (s.insert key e).2.storedBytes + s.kv.weightAt entrySize key
        =
      s.storedBytes + entrySize key e := by
  have := AList.weight_erase entrySize s.kv key
  unfold storedBytes insert
  rw [AList.weight_insert]
  omega

end insert

section removeIf

variable (s : HostState) (key : Bytes) (p : KvEntry → Bool)

theorem removeIf_cases
    : ((s.removeIf key p) = (none, s) ∧ ∀ e, s.kv.lookup key = some e → p e = false)
        ∨
      ∃ e, s.kv.lookup key = some e ∧ p e = true
        ∧ s.removeIf key p = (some e, { s with kv := s.kv.erase key }) := by
  unfold removeIf
  cases s.kv.lookup key with
  | none =>
    left
    refine ⟨rfl, ?_⟩
    intro e he
    cases he
  | some e =>
    cases hp : p e with
    | true =>
      right
      refine ⟨e, rfl, hp, ?_⟩
      simp [hp]
    | false =>
      left
      refine ⟨by simp [hp], ?_⟩
      intro e' he'
      cases he'
      exact hp

end removeIf

theorem lookup_erase_kv (s : HostState) (key k : Bytes)
    : (s.kv.erase key).lookup k = if k = key then none else s.kv.lookup k := by
  split
  . next h =>
    subst h
    apply AList.lookup_erase
  . next h =>
    apply AList.lookup_erase_ne
    exact h

theorem storedBytes_erase {s : HostState} {key : Bytes} {e : KvEntry}
    (h : s.kv.lookup key = some e)
    : (s.kv.erase key).weight entrySize + entrySize key e = s.storedBytes := by
  rw [← AList.weightAt_of_lookup (f := entrySize) h]
  apply AList.weight_erase

section retainLive

variable (s : HostState) (sel : Bytes → Bool) (nowMs : Nat)

@[simp]
theorem retainLive_totalBytes : (s.retainLive sel nowMs).2.2.totalBytes = s.totalBytes := by
  rfl

theorem storedBytes_retainLive
    : (s.retainLive sel nowMs).2.2.storedBytes + (s.retainLive sel nowMs).2.1 = s.storedBytes := by
  have := AList.weight_retain entrySize (fun k e => sel k && isExpired e.expiresAt nowMs) s.kv
  unfold retainLive storedBytes
  dsimp
  omega

theorem lookup_retainLive (k : Bytes)
    : (s.retainLive sel nowMs).2.2.kv.lookup k
        =
      (s.kv.lookup k).filter fun e => !(sel k && isExpired e.expiresAt nowMs) := by
  apply AList.lookup_retain

end retainLive

def live (s : HostState) (key : Bytes) (t : Nat) : Option Bytes :=
  ((s.kv.lookup key).filter fun e => !isExpired e.expiresAt t).map KvEntry.value

theorem live_eq_some {s : HostState} {key : Bytes} {t : Nat} {v : Bytes}
    : s.live key t = some v
        ↔
      ∃ e, s.kv.lookup key = some e ∧ isExpired e.expiresAt t = false ∧ e.value = v := by
  simp [live, Option.filter_eq_some_iff, and_assoc]

theorem live_of_lookup {s : HostState} {key : Bytes} {e : KvEntry} (h : s.kv.lookup key = some e)
    (t : Nat)
    : s.live key t = if isExpired e.expiresAt t then none else some e.value := by
  unfold live
  rw [h]
  cases hexp : isExpired e.expiresAt t with
  | true => simp [Option.filter, hexp]
  | false => simp [Option.filter, hexp]

theorem live_of_lookup_eq_none {s : HostState} {key : Bytes} (h : s.kv.lookup key = none) (t : Nat)
    : s.live key t = none := by
  simp [live, h]

theorem live_congr {s s' : HostState} {key : Bytes} (h : s'.kv.lookup key = s.kv.lookup key)
    (t : Nat)
    : s'.live key t = s.live key t := by
  simp [live, h]

theorem live_of_dropped {s s' : HostState} {key : Bytes} {nowMs t : Nat}
    (h : s'.kv.lookup key = s.kv.lookup key
      ∨ s'.kv.lookup key = none ∧ ∀ e, s.kv.lookup key = some e → isExpired e.expiresAt nowMs = true)
    (ht : nowMs ≤ t)
    : s'.live key t = s.live key t := by
  cases h with
  | inl h => exact live_congr h t
  | inr h =>
    rw [live_of_lookup_eq_none h.1]
    cases hlook : s.kv.lookup key with
    | none => rw [live_of_lookup_eq_none hlook]
    | some e =>
      rw [live_of_lookup hlook]
      rw [isExpired_mono (h.2 e hlook) ht]
      rfl

theorem live_sweep (s : HostState) (key : Bytes) {nowMs t : Nat} (ht : nowMs ≤ t)
    : (s.sweep nowMs).2.live key t = s.live key t := by
  apply live_of_dropped _ ht
  have hlook := lookup_retainLive s (fun _ => true) nowMs key
  change ((s.retainLive (fun _ => true) nowMs).2.2.account 0 _).kv.lookup key = _ ∨
    ((s.retainLive (fun _ => true) nowMs).2.2.account 0 _).kv.lookup key = _ ∧ _
  rw [account_kv, hlook]
  cases s.kv.lookup key with
  | none =>
    left
    rfl
  | some e =>
    cases hexp : isExpired e.expiresAt nowMs with
    | true =>
      right
      refine ⟨by simp [Option.filter, hexp], ?_⟩
      intro e' he'
      cases he'
      exact hexp
    | false =>
      left
      simp [Option.filter, hexp]

end HostState

end OpenRusty
