import OpenRusty.Lib.Arena
import OpenRusty.Lib.Pool

/-!
This module contains the bump allocator of the guests (`alloc_heap.rs`): the calls of any number of threads,
split into their atomic steps on the water mark. Words have `w` bits, 32 of them in a guest.
-/

namespace OpenRusty
namespace AllocHeap

def heapSize (w : Nat) : BitVec w := BitVec.ofNat w (1024 * 1024)

variable {w : Nat}

def isPowerOfTwo (x : BitVec w) : Bool := (List.range w).any fun k => x.toNat == 2 ^ k

def checkedAdd (a b : BitVec w) : Option (BitVec w) := if a.toNat + b.toNat < 2 ^ w then some (a + b) else none

def alignUp (value align : BitVec w) : Option (BitVec w) :=
  if !isPowerOfTwo align then
    none
  else
    let mask := align - 1
    (checkedAdd value mask).map fun v => v &&& ~~~mask

def place (heapSize cur size align : BitVec w) : Option (BitVec w × BitVec w) := do
  let start ← alignUp cur align
  let stop ← checkedAdd start size
  if heapSize < stop then none else some (start, stop)

/-- The water mark, and the values that it had before: a relaxed load may still see one of them. -/
structure Mark (w : Nat) where
  value : BitVec w
  past : List (BitVec w)
  deriving DecidableEq, Repr

namespace Mark

def load (m : Mark w) (behind : Nat) : BitVec w := (m.value :: m.past).getD behind m.value

def store (m : Mark w) (value : BitVec w) : Mark w := { value := value, past := m.value :: m.past }

end Mark

inductive Call (w : Nat) where
  | load (size align : BitVec w)
  | exchange (size align cur start stop : BitVec w)
  | returned (size align : BitVec w) (offset : Option (BitVec w))
  deriving DecidableEq, Repr

/-- A `compare_exchange_weak` may fail without a reason. -/
structure Input where
  behind : Nat
  spurious : Bool
  deriving DecidableEq, Repr

namespace Call

def bumpOffset (arg : BitVec w × BitVec w) : Call w :=
  if !isPowerOfTwo arg.2 then .returned arg.1 arg.2 none else .load arg.1 arg.2

def act (heapSize : BitVec w) (m : Mark w) (c : Call w) (x : Input) : Option (Mark w × Call w) :=
  match c with
  | .load size align =>
    let cur := m.load x.behind
    match place heapSize cur size align with
    | none => some (m, .returned size align none)
    | some (start, stop) => some (m, .exchange size align cur start stop)
  | .exchange size align cur start stop =>
    if m.value = cur ∧ !x.spurious then
      some (m.store stop, .returned size align (some start))
    else
      some (m, .load size align)
  | .returned .. => none

def range? (c : Call w) : Option Arena.Range :=
  match c with
  | .returned size _ (some offset) => some { start := offset.toNat, length := size.toNat }
  | _ => none

end Call

abbrev Calls (w : Nat) := Pool (Mark w) (Call w)

abbrev Event (w : Nat) := Pool.Event (BitVec w × BitVec w) Input

namespace Calls

def new : Calls w := { shared := { value := 0, past := [] }, threads := [] }

def step (heapSize : BitVec w) (p : Calls w) (e : Event w) : Option (Calls w) :=
  Pool.step Call.bumpOffset (Call.act heapSize) p e

end Calls

section alignUp

theorem isPowerOfTwo_iff {x : BitVec w} : isPowerOfTwo x = true ↔ ∃ k < w, x.toNat = 2 ^ k := by
  simp [isPowerOfTwo]

theorem toNat_eq_of_checkedAdd {a b c : BitVec w} (h : checkedAdd a b = some c) : c.toNat = a.toNat + b.toNat := by
  unfold checkedAdd at h
  split at h
  . next hlt =>
    cases h
    rw [BitVec.toNat_add, Nat.mod_eq_of_lt hlt]
  . cases h

theorem toNat_and_not_mask {k : Nat} {mask : BitVec w} (hmask : mask.toNat = 2 ^ k - 1) (v : BitVec w)
    : (v &&& ~~~mask).toNat = v.toNat / 2 ^ k * 2 ^ k := by
  apply Nat.eq_of_testBit_eq
  intro i
  have hhigh : w ≤ i → v.toNat.testBit i = false := by
    intro hi
    exact Nat.testBit_lt_two_pow (Nat.lt_of_lt_of_le v.isLt (Nat.pow_le_pow_right (by decide) hi))
  rw [← Nat.shiftRight_eq_div_pow, ← Nat.shiftLeft_eq, Nat.testBit_shiftLeft, Nat.testBit_shiftRight,
    BitVec.testBit_toNat, BitVec.getLsbD_and, BitVec.getLsbD_not, ← BitVec.testBit_toNat, ← BitVec.testBit_toNat,
    hmask, Nat.testBit_two_pow_sub_one]
  by_cases hik : i < k
  . simp [hik]
  . have hadd : k + (i - k) = i := by omega
    by_cases hiw : i < w
    . simp [hik, hiw, hadd]
      omega
    . simp [hadd, hhigh (Nat.le_of_not_lt hiw)]

theorem toNat_sub_one {align : BitVec w} {k : Nat} (hk : k < w) (halign : align.toNat = 2 ^ k)
    : (align - 1).toNat = 2 ^ k - 1 := by
  have hone : (1 : BitVec w).toNat = 1 := by
    change (BitVec.ofNat w 1).toNat = 1
    rw [BitVec.toNat_ofNat, Nat.mod_eq_of_lt (Nat.one_lt_two_pow (by omega))]
  rw [BitVec.toNat_sub_of_le, halign, hone]
  rw [BitVec.le_def, hone, halign]
  exact Nat.two_pow_pos k

theorem alignUp_eq_some {value align start : BitVec w} (h : alignUp value align = some start)
    : value.toNat ≤ start.toNat ∧ align.toNat ∣ start.toNat := by
  unfold alignUp at h
  split at h
  . cases h
  . next hpow =>
    rw [Bool.not_eq_true, Bool.not_eq_false', isPowerOfTwo_iff] at hpow
    rcases hpow with ⟨k, hk, halign⟩
    rcases Option.map_eq_some_iff.mp h with ⟨v, hadd, rfl⟩
    have hpos : 0 < 2 ^ k := Nat.two_pow_pos k
    have hmask := toNat_sub_one hk halign
    rw [toNat_and_not_mask hmask, toNat_eq_of_checkedAdd hadd, hmask, halign]
    refine ⟨?_, Nat.dvd_mul_left _ _⟩
    have hmod := Nat.mod_lt (value.toNat + (2 ^ k - 1)) hpos
    have hdiv := Nat.div_add_mod' (value.toNat + (2 ^ k - 1)) (2 ^ k)
    omega

theorem place_eq_some {heapSize cur size align start stop : BitVec w}
    (h : place heapSize cur size align = some (start, stop))
    : cur.toNat ≤ start.toNat ∧ align.toNat ∣ start.toNat ∧ stop.toNat = start.toNat + size.toNat
        ∧ stop.toNat ≤ heapSize.toNat := by
  unfold place at h
  simp only [Option.bind_eq_bind, Option.bind_eq_some_iff] at h
  rcases h with ⟨start', halign, stop', hadd, h⟩
  split at h
  . cases h
  . next hle =>
    cases h
    rw [BitVec.lt_def, Nat.not_lt] at hle
    have halign := alignUp_eq_some halign
    exact ⟨halign.1, halign.2, toNat_eq_of_checkedAdd hadd, hle⟩

end alignUp

/-!
A call grants a range of the arena or leaves the mark as it is.
-/

section calls

variable {heapSize : BitVec w}

namespace Call

def Placed (heapSize : BitVec w) (c : Call w) : Prop :=
  match c with
  | .exchange size align cur start stop => place heapSize cur size align = some (start, stop)
  | .returned size align (some start) =>
    align.toNat ∣ start.toNat ∧ start.toNat + size.toNat ≤ heapSize.toNat
  | _ => True

theorem placed_bumpOffset (arg : BitVec w × BitVec w) : (bumpOffset arg).Placed heapSize := by
  unfold bumpOffset
  split
  . trivial
  . trivial

theorem range?_bumpOffset (arg : BitVec w × BitVec w) : (bumpOffset arg).range? = none := by
  unfold bumpOffset
  split
  . rfl
  . rfl

theorem act_cases {m m' : Mark w} {c c' : Call w} {x : Input} (h : c.act heapSize m x = some (m', c'))
    : (m' = m ∧ c.range? = none ∧ c'.range? = none ∧ c'.Placed heapSize)
        ∨
      ∃ size align start stop, c = .exchange size align m.value start stop ∧ m' = m.store stop
        ∧ c' = .returned size align (some start) := by
  cases c with
  | load size align =>
    unfold act at h
    dsimp only at h
    split at h
    . cases h
      exact .inl ⟨rfl, rfl, rfl, trivial⟩
    . next start stop hplace =>
      cases h
      exact .inl ⟨rfl, rfl, rfl, hplace⟩
  | exchange size align cur start stop =>
    unfold act at h
    dsimp only at h
    split at h
    . next hcur =>
      cases h
      rw [hcur.1]
      exact .inr ⟨size, align, start, stop, rfl, rfl, rfl⟩
    . cases h
      exact .inl ⟨rfl, rfl, rfl, trivial⟩
  | returned size align offset => cases h

end Call

namespace Calls

def ranges (p : Calls w) : List Arena.Range := p.threads.filterMap Call.range?

structure Represents (heapSize : BitVec w) (p : Calls w) (a : Arena) : Prop where
  size : a.size = heapSize.toNat
  mark : a.mark = p.shared.value.toNat
  granted : a.granted.Perm p.ranges
  placed : ∀ (i : Nat) c, p.threads[i]? = some c → c.Placed heapSize

theorem represents_new : (new : Calls w).Represents heapSize (.new heapSize.toNat) where
  size := rfl
  mark := by simp [new, Arena.new]
  granted := .refl _
  placed := nofun

theorem represents_step {p q : Calls w} {e : Event w} (hstep : p.step heapSize e = some q) {a : Arena}
    (h : p.Represents heapSize a)
    : ∃ b, q.Represents heapSize b := by
  rcases Pool.step_cases Call.bumpOffset (Call.act heapSize) hstep with
    ⟨arg, rfl, rfl⟩ | ⟨i, x, c, m, c', rfl, hc, hact, rfl⟩
  . refine ⟨a, h.size, h.mark, ?_, Pool.forall_concat (Call.placed_bumpOffset arg) h.placed⟩
    have hgranted := h.granted
    unfold ranges at hgranted ⊢
    rw [List.filterMap_append, List.filterMap_cons_none (Call.range?_bumpOffset arg), List.filterMap_nil,
      List.append_nil]
    exact hgranted
  . rcases Call.act_cases hact with ⟨rfl, hnone, hnone', hplaced⟩ | ⟨size, align, start, stop, rfl, rfl, rfl⟩
    . refine ⟨a, h.size, h.mark, ?_, Pool.forall_set hplaced fun j u _ hu => h.placed j u hu⟩
      have hset := Pool.filterMap_set Call.range? (b := c') hc hnone
      rw [hnone'] at hset
      exact h.granted.trans hset.symm
    . rcases place_eq_some (h.placed i _ hc) with ⟨hcur, halign, hstop, hinside⟩
      let r : Arena.Range := { start := start.toNat, length := size.toNat }
      have hr : r.stop = stop.toNat := hstop.symm
      have hmark : a.mark ≤ r.start := by
        rw [h.mark]
        exact hcur
      have hsize : r.stop ≤ a.size := by
        rw [hr, h.size]
        exact hinside
      have hplaced : (Call.returned size align (some start)).Placed heapSize := by
        rw [hstop] at hinside
        exact ⟨halign, hinside⟩
      refine ⟨a.grant r hmark hsize, h.size, hr, ?_, Pool.forall_set hplaced fun j u _ hu => h.placed j u hu⟩
      have hset := Pool.filterMap_set Call.range? (b := .returned size align (some start)) hc rfl
      exact (h.granted.cons r).trans hset.symm

theorem represents_run {p : Calls w} {events : List (Event w)}
    (hrun : Machine.run (step heapSize) new events = some p)
    : ∃ a, p.Represents heapSize a := by
  apply Machine.inv_of_run_all (I := fun p => ∃ a, p.Represents heapSize a) _ ⟨_, represents_new⟩ hrun
  rintro p e q ⟨a, ha⟩ hstep
  exact represents_step hstep ha

end Calls

theorem bumpOffset_disjoint (heapSize : BitVec w) (events : List (Event w)) (p : Calls w)
    (hrun : Machine.run (Calls.step heapSize) Calls.new events = some p)
    : p.ranges.Pairwise (fun r s => Disjoint r.cells s.cells)
        ∧ (∀ r ∈ p.ranges, r.stop ≤ heapSize.toNat)
        ∧ ∀ i size align, p.threads[i]? = some (.returned size align none) →
          Machine.Along (Calls.step heapSize)
            (fun p e q => ∀ x, e = .step i x → q.shared.value = p.shared.value) Calls.new events := by
  rcases Calls.represents_run hrun with ⟨a, ha⟩
  refine ⟨?_, ?_, ?_⟩
  . apply (ha.granted.pairwise_iff _).mp a.disjoint
    intro r s hrs
    exact hrs.symm
  . intro r hr
    rw [← ha.size]
    exact a.stop_le (ha.granted.mem_iff.mpr hr)
  . intro i size align hi
    apply Pool.along_of_not_committed (C := fun c => ∃ r, c.range? = some r)
      (K := fun m m' => m'.value = m.value) _ _ hrun hi
    . rintro ⟨r, hr⟩
      cases hr
    . rintro m c x m' c' ⟨r, hr⟩ hact
      rcases Call.act_cases hact with ⟨-, hnone, -, -⟩ | ⟨size, align, start, stop, rfl, -, -⟩
      . rw [hnone] at hr
        cases hr
      . cases hr
    . intro m c x m' c' hact
      rcases Call.act_cases hact with ⟨rfl, -⟩ | ⟨size, align, start, stop, rfl, rfl, rfl⟩
      . exact .inr rfl
      . exact .inl ⟨_, rfl⟩

def contended : List (Event 32) :=
  [.spawn (16, 8), .spawn (10, 8), .spawn (64, 8), .step 0 ⟨0, false⟩, .step 1 ⟨0, false⟩, .step 0 ⟨0, false⟩,
    .step 1 ⟨0, false⟩, .step 1 ⟨0, false⟩, .step 2 ⟨0, false⟩, .step 1 ⟨0, false⟩]

theorem bumpOffset_disjoint_contended
    : ∃ p, Machine.run (Calls.step 64) Calls.new contended = some p
        ∧ p.ranges = [{ start := 0, length := 16 }, { start := 16, length := 10 }]
        ∧ p.shared.value = 26
        ∧ p.ranges.Pairwise fun r s => Disjoint r.cells s.cells := by
  refine ⟨_, rfl, by decide, by decide, ?_⟩
  exact (bumpOffset_disjoint 64 contended _ rfl).1

end calls

/-!
The address of what a call has returned; the null address stands for a refusal.
-/

section address

structure Layout (w : Nat) where
  size : BitVec w
  align : BitVec w
  isPowerOfTwo : isPowerOfTwo align = true
  fits : size.toNat + align.toNat ≤ 2 ^ (w - 1)

structure IsBase (heapBase : BitVec w) : Prop where
  pos : 0 < heapBase.toNat
  fits : heapBase.toNat + 1024 * 1024 ≤ 2 ^ w

def address (heapBase : BitVec w) (offset : Option (BitVec w)) : BitVec w :=
  match offset with
  | some offset => heapBase + offset
  | none => 0

theorem IsBase.toNat_heapSize {heapBase : BitVec w} (h : IsBase heapBase) : (heapSize w).toNat = 1024 * 1024 := by
  have hpos := h.pos
  have hfits := h.fits
  unfold heapSize
  rw [BitVec.toNat_ofNat, Nat.mod_eq_of_lt (by omega)]

theorem checkedAdd_zero (x : BitVec w) : checkedAdd 0 x = some x := by
  have hlt : (0 : BitVec w).toNat + x.toNat < 2 ^ w := by simp [x.isLt]
  unfold checkedAdd
  rw [if_pos hlt]
  simp

theorem alignUp_zero {align : BitVec w} (h : AllocHeap.isPowerOfTwo align = true) : alignUp 0 align = some 0 := by
  rcases isPowerOfTwo_iff.mp h with ⟨k, hk, halign⟩
  have hmask := toNat_sub_one hk halign
  have hzero : (align - 1) &&& ~~~(align - 1) = 0 := by
    apply BitVec.eq_of_toNat_eq
    rw [toNat_and_not_mask hmask, hmask, Nat.div_eq_of_lt (Nat.sub_lt (Nat.two_pow_pos k) (by decide))]
    simp
  unfold alignUp
  dsimp only
  rw [h, checkedAdd_zero, Bool.not_true, if_neg (by decide), Option.map_some, hzero]

theorem place_zero {layout : Layout w} {heapSize : BitVec w} (h : layout.size.toNat ≤ heapSize.toNat)
    : place heapSize 0 layout.size layout.align = some (0, layout.size) := by
  have hle : ¬heapSize < layout.size := by
    rw [BitVec.lt_def]
    omega
  unfold place
  simp only [alignUp_zero layout.isPowerOfTwo, checkedAdd_zero, Option.bind_eq_bind, Option.bind_some]
  exact if_neg hle

def firstCall (layout : Layout w) : List (Event w) :=
  [.spawn (layout.size, layout.align), .step 0 ⟨0, false⟩, .step 0 ⟨0, false⟩]

theorem run_firstCall {layout : Layout w} {heapSize : BitVec w} (h : layout.size.toNat ≤ heapSize.toNat)
    : Machine.run (Calls.step heapSize) Calls.new (firstCall layout)
        =
      some {
        shared := { value := layout.size, past := [0] }
        threads := [.returned layout.size layout.align (some 0)]
      } := by
  have hstart : Call.bumpOffset (layout.size, layout.align) = .load layout.size layout.align := by
    unfold Call.bumpOffset
    rw [if_neg (by simp [layout.isPowerOfTwo])]
  have hload : Call.act heapSize { value := 0, past := [] } (.load layout.size layout.align) ⟨0, false⟩
      = some ({ value := 0, past := [] }, .exchange layout.size layout.align 0 0 layout.size) := by
    unfold Call.act
    simp only [Mark.load, List.getD_cons_zero, place_zero h]
  have hexchange : Call.act heapSize { value := 0, past := [] }
      (.exchange layout.size layout.align 0 0 layout.size) ⟨0, false⟩
      = some ({ value := layout.size, past := [0] }, .returned layout.size layout.align (some 0)) := by
    rfl
  unfold firstCall
  simp only [Machine.run_cons, Machine.run_nil, Calls.step, Pool.step, Calls.new, Option.bind_some, List.nil_append,
    List.getElem?_cons_zero, hstart, hload, hexchange, Option.map_some, List.set_cons_zero]

theorem address_aligned_iff {heapBase : BitVec w} (hbase : IsBase heapBase) (layout : Layout w)
    : (∀ (events : List (Event w)) (p : Calls w) (i : Nat) (offset : Option (BitVec w)),
          Machine.run (Calls.step (heapSize w)) Calls.new events = some p →
          p.threads[i]? = some (.returned layout.size layout.align offset) →
          layout.align.toNat ∣ (address heapBase offset).toNat)
        ↔
      layout.align.toNat ∣ heapBase.toNat ∨ 1024 * 1024 < layout.size.toNat := by
  have hheap := hbase.toNat_heapSize
  constructor
  . intro h
    by_cases hsize : 1024 * 1024 < layout.size.toNat
    . exact .inr hsize
    . have hle : layout.size.toNat ≤ (heapSize w).toNat := by omega
      have hfirst := h _ _ 0 (some 0) (run_firstCall hle) rfl
      left
      simpa [address] using hfirst
  . rintro h events p i (- | offset) hrun hi
    . simp [address]
    . rcases Calls.represents_run hrun with ⟨a, ha⟩
      rcases ha.placed i _ hi with ⟨halign, hinside⟩
      rcases h with hdvd | hsize
      . rcases isPowerOfTwo_iff.mp layout.isPowerOfTwo with ⟨k, hk, hpow⟩
        have hword : layout.align.toNat ∣ 2 ^ w := by
          rw [hpow]
          exact Nat.pow_dvd_pow 2 (Nat.le_of_lt hk)
        unfold address
        rw [BitVec.toNat_add, Nat.dvd_mod_iff hword]
        exact Nat.dvd_add hdvd halign
      . omega

def layout32 : Layout 32 where
  size := 32
  align := 8
  isPowerOfTwo := by decide
  fits := by decide

theorem address_aligned_iff_at1024
    : IsBase (1024 : BitVec 32) ∧ (layout32.align.toNat ∣ (address (1024 : BitVec 32) (some 0)).toNat) := by
  have hbase : IsBase (1024 : BitVec 32) := ⟨by decide, by decide⟩
  have hfits : layout32.size.toNat ≤ (heapSize 32).toNat := by decide
  refine ⟨hbase, ?_⟩
  apply (address_aligned_iff hbase layout32).mpr (.inl (by decide)) _ _ 0 (some 0) (run_firstCall hfits) rfl

theorem address_unaligned
    : IsBase (1025 : BitVec 32)
        ∧ ∃ p, Machine.run (Calls.step (heapSize 32)) Calls.new (firstCall layout32) = some p
          ∧ p.threads[0]? = some (.returned layout32.size layout32.align (some 0))
          ∧ ¬layout32.align.toNat ∣ (address (1025 : BitVec 32) (some 0)).toNat := by
  refine ⟨⟨by decide, by decide⟩, _, run_firstCall (by decide), rfl, ?_⟩
  decide

end address

end AllocHeap
end OpenRusty
