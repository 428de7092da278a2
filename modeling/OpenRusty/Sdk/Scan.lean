import OpenRusty.Sdk.Host
import OpenRusty.Wasm.Scan.Lemmas

/-!
This module contains the scan of a guest over the store of its plugin, from the snapshot of the host to
the items of the iterator. Before every call of the guest other guests and the maintenance task get at
the store, and the guest may have put its buffer anywhere in its memory.
-/

namespace OpenRusty

structure Interval where
  events : List (KvOp × Nat)
  before : Bytes
  after : Bytes
  -- The arena of the guest lies in the part of its memory that a pointer can name.
  before_le : before.length ≤ i32Max

structure ScanHost where
  host : HostState
  calls : Nat

namespace HostState

def execAll (s : HostState) (events : List (KvOp × Nat)) : HostState :=
  events.foldl (fun s e => (s.exec e.1 e.2).2) s

end HostState

namespace ScanHost

def kvScanNext (env : Nat → Interval) (cursor : Int) (buf : Bytes) (w : ScanHost)
    : Int × Bytes × ScanHost :=
  let i := env w.calls
  let host := w.host.execAll i.events
  let memory := i.before ++ buf ++ i.after
  match host.kvScanNext (some memory) cursor (asI32 i.before.length) (asI32 buf.length) with
  | (r, host, memory) =>
    (r, ((memory.getD []).drop i.before.length).take buf.length, { host := host, calls := w.calls + 1 })

end ScanHost

namespace HostState

variable {s : HostState} {cursor : Nat} {c : ScanCursor}

theorem lookup_execAll {events : List (KvOp × Nat)} (h : s.cursors.lookup cursor = some c)
    (hpos : c.pos < c.entries.length) (hage : ∀ e ∈ events, e.2 < c.createdAt + cursorTtlMs)
    : (s.execAll events).cursors.lookup cursor = some c := by
  induction events generalizing s with
  | nil => exact h
  | cons e events ih =>
    rcases e with ⟨op, nowMs⟩
    apply ih
    . rcases exec_cursors s op nowMs with heq | rfl
      . rw [heq]
        exact h
      . have hyoung : nowMs - c.createdAt < cursorTtlMs := by
          have := hage (.sweep, nowMs) (by simp)
          unfold cursorTtlMs at this ⊢
          omega
        change (s.sweep nowMs).2.cursors.lookup cursor = some c
        rw [lookup_sweep_cursors, h]
        simp [Option.filter, ScanCursor.survives, hpos, hyoung]
    . intro e he
      apply hage
      simp [he]

theorem lookup_execAll_none {events : List (KvOp × Nat)} (h : s.cursors.lookup cursor = none)
    : (s.execAll events).cursors.lookup cursor = none := by
  induction events generalizing s with
  | nil => exact h
  | cons e events ih =>
    rcases e with ⟨op, nowMs⟩
    apply ih
    rcases exec_cursors s op nowMs with heq | rfl
    . rw [heq]
      exact h
    . change (s.sweep nowMs).2.cursors.lookup cursor = none
      rw [lookup_sweep_cursors, h]
      rfl

theorem lookup_execAll_used_up {events : List (KvOp × Nat)} (h : s.cursors.lookup cursor = some c)
    : (s.execAll events).cursors.lookup cursor = some c
        ∨ (s.execAll events).cursors.lookup cursor = none := by
  induction events generalizing s with
  | nil => exact .inl h
  | cons e events ih =>
    rcases e with ⟨op, nowMs⟩
    rcases exec_cursors s op nowMs with heq | rfl
    . exact ih (by rw [heq]; exact h)
    . have hsweep := lookup_sweep_cursors s nowMs cursor
      rw [h] at hsweep
      cases hsurvives : c.survives nowMs with
      | true =>
        rw [Option.filter_some, if_pos hsurvives] at hsweep
        exact ih hsweep
      | false =>
        right
        rw [Option.filter_some, if_neg (by simp [hsurvives])] at hsweep
        exact lookup_execAll_none (s := (s.sweep nowMs).2) hsweep

end HostState

namespace PluginState

theorem live_maintain {sweptAt t : Nat} (s : PluginState) (key : Bytes) (h : sweptAt ≤ t)
    : (s.maintain sweptAt).live key t = s.live key t := by
  unfold maintain
  split
  . exact HostState.live_sweep s.toHostState key h
  . rfl

end PluginState

section collect

variable {env : Nat → Interval} {cursor : Nat} {entries : List (Bytes × Bytes)} {createdAt : Nat}

def ScanHost.At (cursor : Nat) (entries : List (Bytes × Bytes)) (createdAt pos : Nat) (w : ScanHost) : Prop :=
  if pos < entries.length then
    w.host.cursors.lookup cursor = some { entries := entries, pos := pos, createdAt := createdAt }
  else
    w.host.cursors.lookup cursor = none
      ∨ ∃ c, w.host.cursors.lookup cursor = some c ∧ c.entries.length ≤ c.pos

theorem next_of_used_up (env : Nat → Interval) {pos : Nat} {w : ScanHost} (hw : w.At cursor entries createdAt pos)
    (hpos : entries.length ≤ pos)
    : (KvScan.next (ScanHost.kvScanNext env) { cursor := cursor } w).1 = none := by
  have hcode : ∀ buf, (ScanHost.kvScanNext env cursor buf w).1 = -1
      ∨ (ScanHost.kvScanNext env cursor buf w).1 = 0 := by
    intro buf
    have hlook : (w.host.execAll (env w.calls).events).cursors.lookup cursor = none
        ∨ ∃ c, (w.host.execAll (env w.calls).events).cursors.lookup cursor = some c
          ∧ c.entries.length ≤ c.pos := by
      unfold ScanHost.At at hw
      rw [if_neg (by omega)] at hw
      rcases hw with hnone | ⟨c, hsome, hused⟩
      . exact .inl (HostState.lookup_execAll_none hnone)
      . rcases HostState.lookup_execAll_used_up hsome with h | h
        . exact .inr ⟨c, h, hused⟩
        . exact .inl h
    unfold ScanHost.kvScanNext
    dsimp only
    rcases hlook with hnone | ⟨c, hsome, hused⟩
    . left
      rw [HostState.kvScanNext_of_dead hnone]
    . right
      rw [HostState.kvScanNext_of_used_up hsome (List.getElem?_eq_none hused)]
  have hstep := scanStep_of_end (hcode (List.replicate scanBufLen 0))
  exact congrArg (Option.map kvPairFromTlv) hstep

variable (hage : ∀ i, ∀ e ∈ (env i).events, e.2 < createdAt + cursorTtlMs)

include hage

theorem serves_kvScanNext {pos : Nat} {k v : Bytes} (h : entries[pos]? = some (k, v))
    (hlen : (encodeKvPair k v).length ≤ maxReadLen)
    : Serves (ScanHost.kvScanNext env cursor) (encodeKvPair k v) (ScanHost.At cursor entries createdAt pos)
        (ScanHost.At cursor entries createdAt (pos + 1)) := by
  have hpos : pos < entries.length := (List.getElem?_eq_some_iff.mp h).1
  have hne : (encodeKvPair k v).length ≠ 0 := by
    rw [length_encodeKvPair]
    omega
  have hlook : ∀ w, ScanHost.At cursor entries createdAt pos w →
      (w.host.execAll (env w.calls).events).cursors.lookup cursor
        =
      some { entries := entries, pos := pos, createdAt := createdAt } := by
    intro w hw
    unfold ScanHost.At at hw
    rw [if_pos hpos] at hw
    exact HostState.lookup_execAll hw hpos (hage w.calls)
  constructor
  -- A buffer that is too small leaves the entry where it is, and the answer is the length that it needs.
  . intro w buf hw hsmall
    have hbuf : asI32 buf.length = buf.length := by
      apply asI32_eq
      unfold maxReadLen at hlen
      unfold i32Max
      omega
    refine ⟨{ host := w.host.execAll (env w.calls).events, calls := w.calls + 1 }, ?_, ?_⟩
    . unfold ScanHost.kvScanNext
      dsimp only
      rw [HostState.kvScanNext_of_entry (hlook w hw) h, hbuf, writeOut_too_small hsmall]
      rw [if_neg (by rw [requiredLen_eq hlen]; omega)]
      simp
    . unfold ScanHost.At
      rw [if_pos hpos]
      exact hlook w hw
  -- An entry that fits is consumed, and the cursor goes with the last one.
  . intro w buf hw hfits hbuf
    have hcap : asI32 buf.length = buf.length := by
      apply asI32_eq
      unfold maxReadLen at hbuf
      unfold i32Max
      omega
    have hptr : asI32 (env w.calls).before.length = (env w.calls).before.length :=
      asI32_eq (env w.calls).before_le
    refine ⟨{
      host := (w.host.execAll (env w.calls).events).scanAdvance cursor
      calls := w.calls + 1 }, ?_, ?_⟩
    . unfold ScanHost.kvScanNext
      dsimp only
      rw [HostState.kvScanNext_of_entry (hlook w hw) h, hcap, hptr, writeOut_fits hne hfits]
      rw [if_pos (by omega)]
      have htake : (encodeKvPair k v ++ buf.drop (encodeKvPair k v).length).length = buf.length := by
        simp only [List.length_append, List.length_drop]
        omega
      simp only [Option.getD_some, List.append_assoc]
      rw [List.drop_left' rfl, ← List.append_assoc, List.take_left' htake]
    . unfold ScanHost.At
      dsimp only
      rw [HostState.lookup_scanAdvance, hlook w hw, Option.bind_some]
      dsimp only
      split
      . rw [if_neg (by omega)]
      . left
        rw [if_pos (by omega)]

theorem next_of_entry {pos : Nat} {k v : Bytes} (h : entries[pos]? = some (k, v))
    (hlen : (encodeKvPair k v).length ≤ maxReadLen) {w : ScanHost} (hw : w.At cursor entries createdAt pos)
    : ∃ t, KvScan.next (ScanHost.kvScanNext env) { cursor := cursor } w
          =
        (some (k, v), { cursor := cursor }, t)
      ∧ t.At cursor entries createdAt (pos + 1) := by
  have hmin : 2 ≤ (encodeKvPair k v).length := by
    rw [length_encodeKvPair]
    omega
  have hpair : kvPairFromTlv (encodeKvPair k v) = (k, v) := by
    apply kvPairFromTlv_encodeKvPair
    unfold maxReadLen at hlen
    omega
  rcases scanStep_of_serves (serves_kvScanNext hage h hlen) (by omega) hw hmin hlen with ⟨t, hstep, ht⟩
  refine ⟨t, ?_, ht⟩
  unfold KvScan.next
  rw [hstep]
  dsimp only
  rw [Option.map_some, hpair]

theorem collect_eq (hfits : ∀ k v, (k, v) ∈ entries → (encodeKvPair k v).length ≤ maxReadLen)
    {pos fuel : Nat} {w : ScanHost} (hw : w.At cursor entries createdAt pos)
    (hfuel : entries.length < fuel + pos) (hpos : pos ≤ entries.length)
    : KvScan.collect (ScanHost.kvScanNext env) fuel { cursor := cursor } w = some (entries.drop pos) := by
  induction fuel generalizing pos w with
  | zero => omega
  | succ fuel ih =>
    unfold KvScan.collect
    by_cases hlt : pos < entries.length
    . rcases hitem : entries[pos] with ⟨k, v⟩
      have hentry : entries[pos]? = some (k, v) := by
        rw [List.getElem?_eq_getElem hlt, hitem]
      have hlen := hfits k v (List.mem_of_getElem? hentry)
      rcases next_of_entry hage hentry hlen hw with ⟨t, hnext, ht⟩
      rw [hnext]
      dsimp only
      rw [ih ht (by omega) hlt, Option.map_some, List.drop_eq_getElem_cons hlt, hitem]
    . have hnone := next_of_used_up env hw (by omega)
      rw [List.drop_eq_nil_of_le (by omega)]
      split
      . rfl
      . next heq =>
        rw [heq] at hnone
        cases hnone

end collect

namespace DeletedMeanwhile

def state : PluginState :=
  { PluginState.new with
    kv := (AList.insert [98] { value := List.replicate 300 7, expiresAt := Word.max 64 }
      (AList.insert [97] { value := [49], expiresAt := 500 } ∅))
    totalBytes := 303 }

def interval : Interval where
  events := [(.del [98], 600), (.sweep, 700)]
  before := []
  after := [0]
  before_le := by decide

end DeletedMeanwhile

end OpenRusty
