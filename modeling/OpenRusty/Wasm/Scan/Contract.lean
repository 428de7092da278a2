import OpenRusty.Lib.Machine
import OpenRusty.Wasm.Scan.Lemmas

/-!
This module contains the contract of `kv_scan_next` over every run of calls: a cursor yields its entries
one by one, is exhausted from then on, and is dead only before it is opened and after it is ended or has
grown too old. The code drops a cursor together with its last entry, so it keeps to the contract in
exactly the runs that do not ask again.
-/

namespace OpenRusty

inductive ScanCall where
  | kv (op : KvOp) (nowMs : Nat)
  | scanBegin (pre : Bytes) (sweptAt scannedAt createdAt : Nat)
  | scanNext (memory : Option Bytes) (cursor outPtr outCap : Int)
  | scanEnd (cursor : Int)
  deriving DecidableEq, Repr

namespace PluginState

def exec (s : PluginState) (call : ScanCall) : PluginState :=
  match call with
  | .kv op nowMs => { s with toHostState := (s.toHostState.exec op nowMs).2 }
  | .scanBegin pre sweptAt scannedAt createdAt => (s.scanBegin pre sweptAt scannedAt createdAt).2
  | .scanNext memory cursor outPtr outCap =>
    { s with toHostState := (s.kvScanNext memory cursor outPtr outCap).2.1 }
  | .scanEnd cursor => { s with toHostState := s.kvScanEnd cursor }

def nextAnswer (s : PluginState) (memory : Option Bytes) (cursor outPtr outCap : Int)
    : Int × Option Bytes :=
  match s.kvScanNext memory cursor outPtr outCap with
  | (r, _, memory) => (r, memory)

end PluginState

/-- A scan as its guest sees it; it is untouched until it is advanced or a sweep has passed it. -/
structure OpenScan where
  entries : List (Bytes × Bytes)
  delivered : Nat
  createdAt : Nat
  untouched : Bool
  deriving DecidableEq, Repr

namespace OpenScan

def next (o : OpenScan) (memory : Option Bytes) (outPtr outCap : Int) : OpenScan :=
  match o.entries[o.delivered]? with
  | some (k, v) =>
    if 0 ≤ (writeOut memory outPtr outCap (encodeKvPair k v)).1 then
      { o with delivered := o.delivered + 1, untouched := false }
    else
      { o with untouched := false }
  | none => { o with untouched := false }

def reclaim (o : OpenScan) (nowMs : Nat) : Option OpenScan :=
  if cursorTtlMs ≤ nowMs - o.createdAt then none else some { o with untouched := false }

def answer (scan : Option OpenScan) (memory : Option Bytes) (outPtr outCap : Int) : Int × Option Bytes :=
  match scan with
  | none => (-1, memory)
  | some o =>
    match o.entries[o.delivered]? with
    | some (k, v) => writeOut memory outPtr outCap (encodeKvPair k v)
    | none => (0, memory)

def after (cursor : Int) (s : PluginState) (scan : Option OpenScan) (call : ScanCall)
    : Option OpenScan :=
  match call with
  | .kv op nowMs => if op = .sweep then scan.bind fun o => o.reclaim nowMs else scan
  | .scanBegin pre sweptAt scannedAt createdAt =>
    if 0 ≤ cursor ∧ (s.scanBegin pre sweptAt scannedAt createdAt).1 = cursor then
      some {
        entries := (s.maintain sweptAt).kvScan pre scannedAt
        delivered := 0
        createdAt := createdAt
        untouched := true
      }
    else if sweepEvery ≤ s.staleOps then
      scan.bind fun o => o.reclaim sweptAt
    else
      scan
  | .scanNext memory c outPtr outCap =>
    if c = cursor then scan.map fun o => o.next memory outPtr outCap else scan
  | .scanEnd c => if c = cursor then none else scan

def held (o : OpenScan) : Option ScanCursor :=
  if o.delivered < o.entries.length ∨ o.entries = [] ∧ o.untouched = true then
    some { entries := o.entries, pos := o.delivered, createdAt := o.createdAt }
  else
    none

end OpenScan

abbrev ScanWorld := PluginState × Option OpenScan

namespace ScanWorld

def step (cursor : Int) (w : ScanWorld) (call : ScanCall) : Option ScanWorld :=
  some (w.1.exec call, OpenScan.after cursor w.1 w.2 call)

def Conforms (cursor : Int) (w : ScanWorld) (call : ScanCall) : Prop :=
  match call with
  | .scanNext memory c outPtr outCap =>
    c = cursor → w.1.nextAnswer memory c outPtr outCap = OpenScan.answer w.2 memory outPtr outCap
  | _ => True

/-- No call comes after the last entry, unless it is the first one on an empty scan. -/
def InTime (cursor : Int) (w : ScanWorld) (call : ScanCall) : Prop :=
  match call with
  | .scanNext _ c _ _ =>
    c = cursor → ∀ o, w.2 = some o → o.entries.length ≤ o.delivered → o.entries = [] ∧ o.untouched = true
  | _ => True

instance (cursor : Int) (w : ScanWorld) (call : ScanCall) : Decidable (Conforms cursor w call) :=
  match call with
  | .scanNext memory c outPtr outCap =>
    inferInstanceAs (Decidable (c = cursor →
      w.1.nextAnswer memory c outPtr outCap = OpenScan.answer w.2 memory outPtr outCap))
  | .kv _ _ => isTrue trivial
  | .scanBegin _ _ _ _ => isTrue trivial
  | .scanEnd _ => isTrue trivial

structure Inv (cursor : Int) (w : ScanWorld) : Prop where
  held : 0 ≤ cursor → w.1.cursors.lookup cursor.toNat = w.2.bind OpenScan.held
  negative : cursor < 0 → w.2 = none
  delivered_le : ∀ o, w.2 = some o → o.delivered ≤ o.entries.length

end ScanWorld

namespace OpenScan

section answer

variable {o : OpenScan} {memory : Option Bytes} {outPtr outCap : Int}

theorem entry_of_lt (h : o.delivered < o.entries.length)
    : ∃ k v, o.entries[o.delivered]? = some (k, v) := by
  rw [List.getElem?_eq_getElem h]
  exact ⟨_, _, rfl⟩

theorem answer_of_entry {k v : Bytes} (h : o.entries[o.delivered]? = some (k, v))
    : answer (some o) memory outPtr outCap = writeOut memory outPtr outCap (encodeKvPair k v) := by
  unfold answer
  dsimp only
  rw [h]

theorem answer_of_used_up (h : o.entries[o.delivered]? = none)
    : answer (some o) memory outPtr outCap = (0, memory) := by
  unfold answer
  dsimp only
  rw [h]

theorem held_of_lt (h : o.delivered < o.entries.length)
    : o.held = some { entries := o.entries, pos := o.delivered, createdAt := o.createdAt } := by
  unfold held
  rw [if_pos (.inl h)]

theorem held_next_of_used_up (h : o.entries.length ≤ o.delivered)
    : (o.next memory outPtr outCap).held = none := by
  unfold next held
  rw [List.getElem?_eq_none h]
  simp [Nat.not_lt_of_le h]

end answer

theorem held_reclaim (o : OpenScan) (nowMs : Nat)
    : (o.reclaim nowMs).bind held = o.held.filter fun c => c.survives nowMs := by
  unfold reclaim held
  by_cases hage : cursorTtlMs ≤ nowMs - o.createdAt
  . rw [if_pos hage]
    split
    . simp [Option.filter, ScanCursor.survives, hage]
    . rfl
  . rw [if_neg hage]
    by_cases hlen : o.delivered < o.entries.length
    . simp [Option.filter, ScanCursor.survives, hage, hlen]
    . -- An empty scan has nothing left, so the sweep drops its cursor.
      split
      . simp [Option.filter, ScanCursor.survives, hlen]
      . simp [hlen]

theorem bind_held_reclaim (scan : Option OpenScan) (nowMs : Nat)
    : (scan.bind fun o => o.reclaim nowMs).bind held
        =
      (scan.bind held).filter fun c => c.survives nowMs := by
  cases scan with
  | none => rfl
  | some o => exact held_reclaim o nowMs

theorem held_next {o : OpenScan} {k v : Bytes} {memory : Option Bytes} {outPtr outCap : Int}
    (h : o.entries[o.delivered]? = some (k, v))
    : (o.next memory outPtr outCap).held
        =
      if 0 ≤ (writeOut memory outPtr outCap (encodeKvPair k v)).1 then
        if o.entries.length ≤ o.delivered + 1 then
          none
        else
          some { entries := o.entries, pos := o.delivered + 1, createdAt := o.createdAt }
      else
        o.held := by
  have hlt : o.delivered < o.entries.length := (List.getElem?_eq_some_iff.mp h).1
  unfold next held
  rw [h]
  dsimp only
  split
  . by_cases hlast : o.entries.length ≤ o.delivered + 1
    . simp [hlast]
    . simp [hlast, Nat.lt_of_not_le hlast]
  . simp [hlt]

theorem delivered_next {o : OpenScan} (h : o.delivered ≤ o.entries.length) (memory : Option Bytes)
    (outPtr outCap : Int)
    : (o.next memory outPtr outCap).delivered ≤ (o.next memory outPtr outCap).entries.length := by
  unfold next
  split
  . next hentry =>
    have := (List.getElem?_eq_some_iff.mp hentry).1
    split
    . exact this
    . exact h
  . exact h

end OpenScan

namespace ScanWorld

variable {cursor : Int} {w : ScanWorld}

theorem inv_of_reclaim {s : PluginState} {scan : Option OpenScan} {nowMs : Nat}
    (h : Inv cursor (s, scan)) {t : PluginState}
    (hlook : ∀ c, t.cursors.lookup c = (s.cursors.lookup c).filter fun c => c.survives nowMs)
    : Inv cursor (t, scan.bind fun o => o.reclaim nowMs) := by
  constructor
  . intro hcursor
    dsimp only
    rw [hlook, h.held hcursor, OpenScan.bind_held_reclaim]
  . intro hcursor
    have hnone := h.negative hcursor
    dsimp only at hnone ⊢
    rw [hnone]
    rfl
  . intro o ho
    rcases Option.bind_eq_some_iff.mp ho with ⟨o', ho', hreclaim⟩
    unfold OpenScan.reclaim at hreclaim
    split at hreclaim
    . cases hreclaim
    . cases hreclaim
      exact h.delivered_le o' ho'

theorem Inv.of_cursors (h : Inv cursor w) {t : PluginState} (hcursors : t.cursors = w.1.cursors)
    : Inv cursor (t, w.2) := by
  constructor
  . intro hcursor
    dsimp only
    rw [hcursors]
    exact h.held hcursor
  . exact h.negative
  . exact h.delivered_le

theorem Inv.kv (h : Inv cursor w) (op : KvOp) (nowMs : Nat)
    : Inv cursor (w.1.exec (.kv op nowMs), OpenScan.after cursor w.1 w.2 (.kv op nowMs)) := by
  unfold OpenScan.after
  dsimp only
  by_cases hop : op = .sweep
  . rw [if_pos hop]
    subst hop
    apply inv_of_reclaim h
    intro c
    exact HostState.lookup_sweep_cursors w.1.toHostState nowMs c
  . rw [if_neg hop]
    apply h.of_cursors
    exact (HostState.exec_cursors w.1.toHostState op nowMs).resolve_right hop

theorem Inv.maintain (h : Inv cursor w) (nowMs : Nat)
    : Inv cursor
        (w.1.maintain nowMs,
          if sweepEvery ≤ w.1.staleOps then w.2.bind fun o => o.reclaim nowMs else w.2) := by
  have hlook := PluginState.lookup_maintain w.1 nowMs
  split
  . next hsweep =>
    apply inv_of_reclaim h
    intro c
    rw [hlook, if_pos hsweep]
  . next hsweep =>
    apply h.of_cursors
    unfold PluginState.maintain
    rw [if_neg hsweep]

theorem Inv.scanBegin (h : Inv cursor w) (pre : Bytes) (sweptAt scannedAt createdAt : Nat)
    : Inv cursor
        (w.1.exec (.scanBegin pre sweptAt scannedAt createdAt),
          OpenScan.after cursor w.1 w.2 (.scanBegin pre sweptAt scannedAt createdAt)) := by
  have hmaintain := h.maintain sweptAt
  rcases w.1.scanBegin_cases pre sweptAt scannedAt createdAt with
    ⟨hid, hcursors⟩ | ⟨id, hid, hcursors⟩
  . -- No cursor is granted.
    unfold OpenScan.after
    dsimp only
    rw [hid, if_neg (by omega)]
    exact hmaintain.of_cursors hcursors
  . by_cases hcursor : 0 ≤ cursor ∧ (id : Int) = cursor
    . rcases hcursor with ⟨hcursor, rfl⟩
      unfold OpenScan.after
      dsimp only
      rw [hid, if_pos ⟨hcursor, rfl⟩]
      constructor
      . intro _
        change (w.1.scanBegin pre sweptAt scannedAt createdAt).2.cursors.lookup id = _
        rw [hcursors, AList.lookup_insert]
        cases hentries : (w.1.maintain sweptAt).kvScan pre scannedAt with
        | nil => rfl
        | cons e entries => rfl
      . omega
      . intro o ho
        cases ho
        exact Nat.zero_le _
    . unfold OpenScan.after
      dsimp only
      rw [hid, if_neg hcursor]
      constructor
      . intro hpos
        change (w.1.scanBegin pre sweptAt scannedAt createdAt).2.cursors.lookup cursor.toNat = _
        rw [hcursors, AList.lookup_insert_ne (by omega)]
        exact hmaintain.held hpos
      . exact hmaintain.negative
      . exact hmaintain.delivered_le

theorem held_kvScanNext {s : HostState} {scan : Option OpenScan} {n : Nat}
    (hheld : s.cursors.lookup n = scan.bind OpenScan.held) (memory : Option Bytes) (outPtr outCap : Int)
    : (s.kvScanNext memory n outPtr outCap).2.1.cursors.lookup n
      = (scan.map fun o => o.next memory outPtr outCap).bind OpenScan.held := by
  cases scan with
  | none =>
    rw [HostState.kvScanNext_of_dead hheld]
    exact hheld
  | some o =>
    rw [Option.bind_some] at hheld
    rw [Option.map_some, Option.bind_some]
    by_cases hlt : o.delivered < o.entries.length
    . rcases OpenScan.entry_of_lt hlt with ⟨k, v, hentry⟩
      have hlook := hheld.trans (OpenScan.held_of_lt hlt)
      rw [OpenScan.held_next hentry, HostState.kvScanNext_of_entry hlook hentry]
      dsimp only
      split
      . rw [HostState.lookup_scanAdvance, hlook]
        rfl
      . exact hheld
    . have hentry : o.entries[o.delivered]? = none := List.getElem?_eq_none (by omega)
      rw [OpenScan.held_next_of_used_up (by omega)]
      cases hlook : s.cursors.lookup n with
      | none =>
        rw [HostState.kvScanNext_of_dead hlook]
        exact hlook
      | some c =>
        rw [hlook] at hheld
        unfold OpenScan.held at hheld
        split at hheld
        . cases hheld
          rw [HostState.kvScanNext_of_used_up hlook hentry]
          apply AList.lookup_erase
        . cases hheld

theorem Inv.scanNext (h : Inv cursor w) (memory : Option Bytes) (c outPtr outCap : Int)
    : Inv cursor
        (w.1.exec (.scanNext memory c outPtr outCap),
          OpenScan.after cursor w.1 w.2 (.scanNext memory c outPtr outCap)) := by
  unfold OpenScan.after PluginState.exec
  dsimp only
  by_cases hneg : c < 0
  . rw [HostState.kvScanNext_of_neg hneg]
    dsimp only
    split
    . next hc =>
      subst hc
      rw [h.negative hneg]
      refine ⟨by omega, fun _ => rfl, by simp⟩
    . exact h
  . rcases Int.eq_ofNat_of_zero_le (Int.not_lt.mp hneg) with ⟨n, rfl⟩
    by_cases hc : (n : Int) = cursor
    . subst hc
      rw [if_pos rfl]
      refine ⟨?_, by omega, ?_⟩
      . intro hpos
        exact held_kvScanNext (h.held hpos) memory outPtr outCap
      . intro o ho
        rcases Option.map_eq_some_iff.mp ho with ⟨o', ho', rfl⟩
        apply OpenScan.delivered_next (h.delivered_le o' ho')
    . rw [if_neg hc]
      refine ⟨?_, h.negative, h.delivered_le⟩
      intro hpos
      dsimp only
      rw [HostState.lookup_kvScanNext_ne (by omega)]
      exact h.held hpos

theorem Inv.scanEnd (h : Inv cursor w) (c : Int)
    : Inv cursor (w.1.exec (.scanEnd c), OpenScan.after cursor w.1 w.2 (.scanEnd c)) := by
  unfold OpenScan.after PluginState.exec HostState.kvScanEnd HostState.scanEnd
  dsimp only
  by_cases hc : c = cursor
  . subst hc
    rw [if_pos rfl]
    refine ⟨?_, fun _ => rfl, by simp⟩
    intro hpos
    dsimp only
    rw [if_pos hpos]
    apply AList.lookup_erase
  . rw [if_neg hc]
    refine ⟨?_, h.negative, h.delivered_le⟩
    intro hpos
    dsimp only
    split
    . dsimp only
      rw [AList.lookup_erase_ne (by omega)]
      exact h.held hpos
    . exact h.held hpos

theorem Inv.step (h : Inv cursor w) {call : ScanCall} {u : ScanWorld}
    (hstep : ScanWorld.step cursor w call = some u)
    : Inv cursor u := by
  cases hstep
  cases call with
  | kv op nowMs => exact h.kv op nowMs
  | scanBegin pre sweptAt scannedAt createdAt => exact h.scanBegin pre sweptAt scannedAt createdAt
  | scanNext memory c outPtr outCap => exact h.scanNext memory c outPtr outCap
  | scanEnd c => exact h.scanEnd c

theorem Inv.conforms_iff (h : Inv cursor w) (call : ScanCall)
    : Conforms cursor w call ↔ InTime cursor w call := by
  cases call with
  | scanNext memory c outPtr outCap =>
    unfold Conforms InTime
    dsimp only
    apply imp_congr_right
    rintro rfl
    by_cases hneg : c < 0
    . unfold PluginState.nextAnswer
      rw [HostState.kvScanNext_of_neg hneg, h.negative hneg]
      simp [OpenScan.answer]
    . rcases Int.eq_ofNat_of_zero_le (Int.not_lt.mp hneg) with ⟨n, rfl⟩
      have hheld := h.held (by omega)
      dsimp only [Int.toNat_natCast] at hheld
      unfold PluginState.nextAnswer
      cases hscan : w.2 with
      | none =>
        rw [hscan] at hheld
        rw [HostState.kvScanNext_of_dead hheld]
        simp [OpenScan.answer]
      | some o =>
        rw [hscan, Option.bind_some] at hheld
        by_cases hlt : o.delivered < o.entries.length
        . rcases OpenScan.entry_of_lt hlt with ⟨k, v, hentry⟩
          rw [OpenScan.held_of_lt hlt] at hheld
          rw [HostState.kvScanNext_of_entry hheld hentry, OpenScan.answer_of_entry hentry]
          simp [hlt]
        . have hentry : o.entries[o.delivered]? = none := List.getElem?_eq_none (by omega)
          rw [OpenScan.answer_of_used_up hentry]
          by_cases hempty : o.entries = [] ∧ o.untouched = true
          . unfold OpenScan.held at hheld
            rw [if_pos (.inr hempty)] at hheld
            rw [HostState.kvScanNext_of_used_up hheld hentry]
            simp [hempty]
          . unfold OpenScan.held at hheld
            rw [if_neg (by simp only [hlt, false_or]; exact hempty)] at hheld
            rw [HostState.kvScanNext_of_dead hheld]
            simp only [Prod.mk.injEq, reduceCtorEq, and_true, Option.some.injEq, forall_eq']
            constructor
            . intro hcode
              cases hcode
            . intro htime
              exact absurd (htime (Nat.le_of_not_lt hlt)) hempty
  | _ => exact Iff.rfl

end ScanWorld

namespace AskedAgain

def entries : AList fun _ : Bytes => KvEntry := AList.insert [97] { value := [49], expiresAt := Word.max 64 } ∅

def state : PluginState := { PluginState.new with kv := entries, totalBytes := 2 }

def begin : ScanCall := .scanBegin [] 0 0 0

def next : ScanCall := .scanNext (some (List.replicate 16 0)) 0 0 16

end AskedAgain

theorem kvScanNext_conforms {s : PluginState} {cursor : Int}
    (h : 0 ≤ cursor → s.cursors.lookup cursor.toNat = none) (calls : List ScanCall)
    : Machine.Guarded (ScanWorld.step cursor) (ScanWorld.Conforms cursor) (s, none) calls
        ↔
      Machine.Guarded (ScanWorld.step cursor) (ScanWorld.InTime cursor) (s, none) calls := by
  have hinv : ScanWorld.Inv cursor (s, none) := ⟨h, fun _ => rfl, by simp⟩
  constructor
  . apply Machine.Guarded.of_inv (I := ScanWorld.Inv cursor) (fun w call u hw _ => hw.step) _ hinv
    intro w call hw
    exact (hw.conforms_iff call).mp
  . apply Machine.Guarded.of_inv (I := ScanWorld.Inv cursor) (fun w call u hw _ => hw.step) _ hinv
    intro w call hw
    exact (hw.conforms_iff call).mpr

theorem kvScanNext_conforms_once
    : Machine.Guarded (ScanWorld.step 0) (ScanWorld.Conforms 0) (AskedAgain.state, none)
        [AskedAgain.begin, AskedAgain.next] := by
  apply (kvScanNext_conforms (fun _ => rfl) _).mpr
  refine ⟨trivial, ?_⟩
  rintro _ ⟨⟩
  refine ⟨?_, fun _ _ => trivial⟩
  rintro - o ho hle
  cases ho
  exact absurd hle (by decide +kernel)

theorem kvScanNext_asked_again
    : (AskedAgain.state.exec AskedAgain.begin).cursors.lookup 0
          =
        some { entries := [([97], [49])], pos := 0, createdAt := 0 }
      ∧ ((AskedAgain.state.exec AskedAgain.begin).nextAnswer (some (List.replicate 16 0)) 0 0 16).1 = 10
      ∧ (((AskedAgain.state.exec AskedAgain.begin).exec AskedAgain.next).nextAnswer none 0 0 16).1 = -1
      ∧ ¬Machine.Guarded (ScanWorld.step 0) (ScanWorld.Conforms 0) (AskedAgain.state, none)
          [AskedAgain.begin, AskedAgain.next, AskedAgain.next] := by
  decide +kernel

end OpenRusty
