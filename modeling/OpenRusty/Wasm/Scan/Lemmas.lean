import OpenRusty.Wasm.Scan.Basic

/-!
This module contains the theory of the single steps of a scan: what each of them does to the cursor with
a given number. The calls on the KV store leave the cursors alone, except for a sweep.
-/

namespace OpenRusty

namespace ScanCursor

def survives (c : ScanCursor) (nowMs : Nat) : Bool :=
  !(decide (c.entries.length ≤ c.pos) || decide (cursorTtlMs ≤ nowMs - c.createdAt))

end ScanCursor

namespace HostState

@[simp]
theorem account_cursors (s : HostState) (added removed : Nat)
    : (s.account added removed).cursors = s.cursors := by
  unfold account
  split
  . rfl
  . split
    . rfl
    . rfl

@[simp]
theorem removeIf_cursors (s : HostState) (key : Bytes) (p : KvEntry → Bool)
    : (s.removeIf key p).2.cursors = s.cursors := by
  rcases removeIf_cases s key p with ⟨h, -⟩ | ⟨e, -, -, h⟩
  . rw [h]
  . rw [h]

theorem kvSet_cursors (s : HostState) (key val : Bytes) (ttlMs : Int) (nowMs : Nat)
    : (s.kvSet key val ttlMs nowMs).2.cursors = s.cursors := by
  unfold kvSet
  dsimp only
  split
  . exact account_cursors _ _ _
  . rfl

theorem kvDel_cursors (s : HostState) (key : Bytes) : (s.kvDel key).2.cursors = s.cursors := by
  have h := removeIf_cursors s key fun _ => true
  unfold kvDel
  revert h
  rcases s.removeIf key fun _ => true with ⟨_ | e, t⟩
  . exact id
  . intro h
    exact (account_cursors _ _ _).trans h

theorem kvGet_cursors (s : HostState) (key : Bytes) (nowMs : Nat)
    : (s.kvGet key nowMs).2.cursors = s.cursors := by
  have hevict : (kvGetWith.evict (ρ := Bytes) s key nowMs).2.cursors = s.cursors := by
    have h := removeIf_cursors s key fun e => isExpired e.expiresAt nowMs
    unfold kvGetWith.evict
    revert h
    rcases s.removeIf key fun e => isExpired e.expiresAt nowMs with ⟨_ | e, t⟩
    . exact id
    . intro h
      exact (account_cursors _ _ _).trans h
  unfold kvGet kvGetWith
  split
  . split
    . exact hevict
    . rfl
  . exact hevict

theorem retainCursors_cursors (s : HostState) (nowMs : Nat)
    : (s.retainCursors nowMs).2.cursors = s.cursors.retain fun _ c => c.survives nowMs := by
  rfl

theorem lookup_sweep_cursors (s : HostState) (nowMs cursor : Nat)
    : (s.sweep nowMs).2.cursors.lookup cursor
        =
      (s.cursors.lookup cursor).filter fun c => c.survives nowMs := by
  have hretain : (s.sweep nowMs).2.cursors = s.cursors.retain fun _ c => c.survives nowMs := by
    unfold sweep retainLive
    dsimp only
    rw [retainCursors_cursors, account_cursors]
  rw [hretain]
  apply AList.lookup_retain

theorem exec_cursors (s : HostState) (op : KvOp) (nowMs : Nat)
    : (s.exec op nowMs).2.cursors = s.cursors ∨ op = .sweep := by
  cases op with
  | set key val ttlMs => exact .inl (kvSet_cursors s key val ttlMs nowMs)
  | del key => exact .inl (kvDel_cursors s key)
  | get key => exact .inl (kvGet_cursors s key nowMs)
  | scan pre => exact .inl rfl
  | sweep => exact .inr rfl

section scanAdvance

variable (s : HostState) (cursor : Nat)

theorem lookup_scanAdvance
    : (s.scanAdvance cursor).cursors.lookup cursor
        =
      (s.cursors.lookup cursor).bind fun c =>
        if c.entries.length ≤ c.pos + 1 then none else some { c with pos := c.pos + 1 } := by
  unfold scanAdvance
  cases h : s.cursors.lookup cursor with
  | none => exact h
  | some c =>
    dsimp only [Option.bind_some]
    split
    . apply AList.lookup_erase
    . apply AList.lookup_insert

theorem lookup_scanAdvance_ne {cursor' : Nat} (h : cursor' ≠ cursor)
    : (s.scanAdvance cursor).cursors.lookup cursor' = s.cursors.lookup cursor' := by
  unfold scanAdvance
  split
  . dsimp only
    split
    . exact AList.lookup_erase_ne h
    . exact AList.lookup_insert_ne h
  . rfl

end scanAdvance

section kvScanNext

variable {s : HostState} {memory : Option Bytes} {cursor : Nat} {outPtr outCap : Int}

theorem kvScanNext_of_neg {cursor : Int} (h : cursor < 0)
    : s.kvScanNext memory cursor outPtr outCap = (-1, s, memory) := by
  unfold kvScanNext
  rw [if_pos h]

theorem kvScanNext_of_dead (h : s.cursors.lookup cursor = none)
    : s.kvScanNext memory cursor outPtr outCap = (-1, s, memory) := by
  unfold kvScanNext scanIsValid
  simp [h]

theorem kvScanNext_of_entry {c : ScanCursor} {k v : Bytes} (h : s.cursors.lookup cursor = some c)
    (hentry : c.entries[c.pos]? = some (k, v))
    : s.kvScanNext memory cursor outPtr outCap
        =
      ((writeOut memory outPtr outCap (encodeKvPair k v)).1,
        if 0 ≤ (writeOut memory outPtr outCap (encodeKvPair k v)).1 then s.scanAdvance cursor else s,
        (writeOut memory outPtr outCap (encodeKvPair k v)).2) := by
  unfold kvScanNext scanIsValid scanPeek
  simp [h, hentry]

theorem kvScanNext_of_used_up {c : ScanCursor} (h : s.cursors.lookup cursor = some c)
    (hentry : c.entries[c.pos]? = none)
    : s.kvScanNext memory cursor outPtr outCap
        =
      (0, { s with cursors := s.cursors.erase cursor }, memory) := by
  unfold kvScanNext scanIsValid scanNext scanPeek
  simp [h, hentry]

theorem lookup_kvScanNext_ne {cursor' : Nat} (h : cursor' ≠ cursor)
    : (s.kvScanNext memory cursor outPtr outCap).2.1.cursors.lookup cursor'
        =
      s.cursors.lookup cursor' := by
  cases hlook : s.cursors.lookup cursor with
  | none => rw [kvScanNext_of_dead hlook]
  | some c =>
    cases hentry : c.entries[c.pos]? with
    | none =>
      rw [kvScanNext_of_used_up hlook hentry]
      exact AList.lookup_erase_ne h
    | some item =>
      rcases item with ⟨k, v⟩
      rw [kvScanNext_of_entry hlook hentry]
      dsimp only
      split
      . exact lookup_scanAdvance_ne s cursor h
      . rfl

end kvScanNext

end HostState

namespace PluginState

theorem lookup_maintain (s : PluginState) (nowMs cursor : Nat)
    : (s.maintain nowMs).cursors.lookup cursor
        =
      if sweepEvery ≤ s.staleOps then
        (s.cursors.lookup cursor).filter fun c => c.survives nowMs
      else
        s.cursors.lookup cursor := by
  unfold maintain
  split
  . exact HostState.lookup_sweep_cursors s.toHostState nowMs cursor
  . rfl

theorem scanBegin_cases (s : PluginState) (pre : Bytes) (sweptAt scannedAt createdAt : Nat)
    : (s.scanBegin pre sweptAt scannedAt createdAt).1 = -1
          ∧ (s.scanBegin pre sweptAt scannedAt createdAt).2.cursors = (s.maintain sweptAt).cursors
        ∨
      ∃ id : Nat, (s.scanBegin pre sweptAt scannedAt createdAt).1 = id
        ∧ (s.scanBegin pre sweptAt scannedAt createdAt).2.cursors
            =
          (s.maintain sweptAt).cursors.insert id
            { entries := (s.maintain sweptAt).kvScan pre scannedAt, pos := 0, createdAt := createdAt } := by
  unfold scanBegin
  dsimp only
  split
  . exact .inl ⟨rfl, rfl⟩
  . split
    . exact .inr ⟨_, rfl, rfl⟩
    . exact .inl ⟨rfl, rfl⟩

end PluginState

end OpenRusty
