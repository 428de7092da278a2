import OpenRusty.Proxy.Health.Lemmas

/-!
This module contains the theory of the in-flight gauges. A registry is within `n` if the gauge of
every slot counts at most the `n upstream addr` requests that hold the address, and only the first
slot of an address counts at all: the gauge of an address that is listed twice is found there.
-/

namespace OpenRusty

namespace HealthRegistry

theorem firstPos_congr {h h' : HealthRegistry} {upstream : String}
    (hreg : h'.registered upstream = h.registered upstream) (addr : SocketAddr)
    : h'.firstPos upstream addr = h.firstPos upstream addr := by
  unfold firstPos
  rw [hreg]

theorem getElem?_of_firstPos {h : HealthRegistry} {upstream : String} {addr : SocketAddr} {i : Nat}
    (hpos : h.firstPos upstream addr = some i)
    : (h.registered upstream)[i]? = some addr := by
  obtain ⟨hlt, heq, -⟩ := List.findIdx?_eq_some_iff_getElem.mp hpos
  rw [List.getElem?_eq_getElem hlt]
  simpa using heq

theorem inherit_eq (h : HealthRegistry) (upstream : String) (addr : SocketAddr)
    : (∃ i p, h.slot upstream i = some (addr, p)
        ∧ h.inherit upstream addr = { p with activeOk := h.isActiveHealthy upstream addr })
      ∨ h.inherit upstream addr = { activeOk := h.isActiveHealthy upstream addr } := by
  unfold inherit
  cases hprev : (h.upstreams.lookup upstream).bind fun slots => slots.previous addr with
  | none => exact .inr rfl
  | some p =>
    left
    obtain ⟨slots, hslots, hlook⟩ := Option.bind_eq_some_iff.mp hprev
    obtain ⟨l₁, l₂, hsplit, -⟩ := List.lookup_eq_some_iff.mp hlook
    have hmem : (addr, p) ∈ slots.addrs.zip slots.peers := by
      rw [← List.mem_reverse, hsplit]
      simp
    obtain ⟨i, hi⟩ := List.mem_iff_getElem?.mp hmem
    refine ⟨i, p, ?_, rfl⟩
    unfold slot
    rw [hslots]
    exact hi

theorem findIdx?_of_count_lt {addrs : List SocketAddr} {i : Nat} {a : SocketAddr}
    (hi : addrs[i]? = some a) (hcount : addrs.count a < 2)
    : (addrs.findIdx? fun b => b == a) = some i := by
  induction addrs generalizing i with
  | nil => cases hi
  | cons b addrs ih =>
    rw [List.findIdx?_cons]
    cases i with
    | zero =>
      cases hi
      simp
    | succ i =>
      rw [List.getElem?_cons_succ] at hi
      have hmem := List.count_pos_iff.mpr (List.mem_of_getElem? hi)
      rw [List.count_cons] at hcount
      split at hcount
      . omega
      . next hne =>
        rw [if_neg hne, ih hi (by omega)]
        rfl

def Within (n : String → SocketAddr → Nat) (h : HealthRegistry) : Prop :=
  ∀ upstream i a p, h.slot upstream i = some (a, p) →
    p.inFlight ≤ n upstream a ∧ (h.firstPos upstream a ≠ some i → p.inFlight = 0)

theorem within_new (n : String → SocketAddr → Nat) : Within n new := by
  intro upstream i a p hslot
  rw [slot_new] at hslot
  cases hslot

variable {n n' : String → SocketAddr → Nat} {h : HealthRegistry}

theorem Within.mono (hw : Within n h) (hle : ∀ v a, n v a ≤ n' v a) : Within n' h := by
  intro v i a p hslot
  obtain ⟨hn, hfirst⟩ := hw v i a p hslot
  have := hle v a
  exact ⟨by omega, hfirst⟩

theorem Within.modifyAt (hw : Within n h) (upstream : String) (idx : Nat)
    {f : PeerHealth → PeerHealth} (hf : ∀ p, (f p).inFlight = p.inFlight)
    : Within n (h.modifyAt upstream idx f) := by
  intro v i a p hslot
  rw [firstPos_congr (registered_modifyAt ..)]
  rw [slot_modifyAt] at hslot
  split at hslot
  . obtain ⟨⟨b, q⟩, hq, heq⟩ := Option.map_eq_some_iff.mp hslot
    cases heq
    rw [hf]
    exact hw v i b q hq
  . exact hw v i a p hslot

theorem Within.modifyAddr (hw : Within n h) (upstream : String) (addr : SocketAddr)
    {f : PeerHealth → PeerHealth} (hle : ∀ v a, (v, a) ≠ (upstream, addr) → n v a ≤ n' v a)
    (hf : ∀ p, p.inFlight ≤ n upstream addr → (f p).inFlight ≤ n' upstream addr)
    : Within n' (h.modifyAddr upstream addr f) := by
  intro v i a p hslot
  rw [firstPos_congr (registered_modifyAddr ..)]
  rw [slot_modifyAddr] at hslot
  split at hslot
  . next hpos =>
    obtain ⟨rfl, hpos⟩ := hpos
    obtain ⟨⟨b, q⟩, hq, heq⟩ := Option.map_eq_some_iff.mp hslot
    cases heq
    have hb := slot_registered hq
    rw [getElem?_of_firstPos hpos] at hb
    cases hb
    refine ⟨hf q (hw v i _ q hq).1, ?_⟩
    intro hne
    exact absurd hpos hne
  . next hpos =>
    obtain ⟨hn, hfirst⟩ := hw v i a p hslot
    refine ⟨?_, hfirst⟩
    by_cases heq : (v, a) = (upstream, addr)
    . cases heq
      -- a further slot of the address, which counts nothing
      have := hfirst (fun hfirst => hpos ⟨rfl, hfirst⟩)
      omega
    . have := hle v a heq
      omega

theorem Within.register (hw : Within n h) (upstream : String) (addrs : List SocketAddr)
    (hrepeat : ∀ a, 2 ≤ addrs.count a → (h.inherit upstream a).inFlight = 0)
    : Within n (h.register upstream addrs) := by
  intro v i a p hslot
  rw [slot_register] at hslot
  split at hslot
  . next hv =>
    subst hv
    obtain ⟨b, hb, heq⟩ := Option.map_eq_some_iff.mp hslot
    cases heq
    constructor
    . obtain ⟨j, q, hq, hinherit⟩ | hinherit := inherit_eq h v a
      . rw [hinherit]
        exact (hw v j a q hq).1
      . rw [hinherit]
        apply Nat.zero_le
    . intro hfirst
      apply hrepeat
      unfold firstPos at hfirst
      rw [registered_register, if_pos rfl] at hfirst
      by_contra hcount
      apply hfirst
      exact findIdx?_of_count_lt hb (by omega)
  . next hv =>
    have hreg : (h.register upstream addrs).registered v = h.registered v := by
      rw [registered_register, if_neg hv]
    rw [firstPos_congr hreg]
    exact hw v i a p hslot

end HealthRegistry

namespace HealthOp

def acquires (op : HealthOp) (v : String) : List SocketAddr :=
  match op with
  | .incInFlight upstream addr => if upstream = v then [addr] else []
  | _ => []

def releases (op : HealthOp) (v : String) : List SocketAddr :=
  match op with
  | .decInFlight upstream addr => if upstream = v then [addr] else []
  | _ => []

/-- No address that a reload lists twice brings a gauge along. -/
def RepeatsIdle (h : HealthRegistry) (op : HealthOp) : Prop :=
  match op with
  | .register upstream addrs => ∀ a ∈ addrs, 2 ≤ addrs.count a → (h.inherit upstream a).inFlight = 0
  | _ => True

instance (h : HealthRegistry) (op : HealthOp) : Decidable (op.RepeatsIdle h) :=
  match op with
  | .register upstream addrs =>
    inferInstanceAs (Decidable (∀ a ∈ addrs, 2 ≤ addrs.count a → (h.inherit upstream a).inFlight = 0))
  | .recordFailure .. | .recordSuccess .. | .recordProbe .. | .incInFlight .. | .decInFlight .. =>
    isTrue trivial

end HealthOp

namespace HealthRegistry

theorem inFlight_recordFailure (cfg : HealthConfig) (nowMs : Nat) (p : PeerHealth)
    : (p.recordFailure cfg nowMs).inFlight = p.inFlight := by
  unfold PeerHealth.recordFailure
  dsimp
  split
  . rfl
  . rfl

theorem Within.exec {n n' : String → SocketAddr → Nat} {h : HealthRegistry} (hw : Within n h)
    (op : HealthOp)
    (hn : ∀ v a, n v a + (op.acquires v).count a ≤ n' v a + (op.releases v).count a)
    (hidle : op.RepeatsIdle h)
    : Within n' (h.exec op) := by
  cases op with
  | register upstream addrs =>
    apply Within.register (hw.mono hn)
    intro a hcount
    exact hidle a (List.count_pos_iff.mp (by omega)) hcount
  | recordFailure upstream idx cfg nowMs =>
    change Within n' (h.recordFailure upstream idx cfg nowMs)
    unfold recordFailure
    split
    . exact hw.mono hn
    . apply (hw.mono hn).modifyAt
      apply inFlight_recordFailure
  | recordSuccess upstream idx nowMs =>
    apply (hw.mono hn).modifyAt
    intro p
    rfl
  | recordProbe upstream idx addr ok unhealthyThreshold healthyThreshold =>
    -- the slots do not depend on the active plane
    apply Within.modifyAt
    . exact hw.mono hn
    . intro p
      rfl
  | incInFlight upstream addr =>
    apply hw.modifyAddr
    . intro v a hne
      have := hn v a
      simp only [HealthOp.acquires, HealthOp.releases] at this
      grind
    . intro p hp
      have := hn upstream addr
      simp [HealthOp.acquires, HealthOp.releases] at this
      simp only [PeerHealth.incInFlight]
      omega
  | decInFlight upstream addr =>
    apply hw.modifyAddr
    . intro v a hne
      have := hn v a
      simp only [HealthOp.acquires, HealthOp.releases] at this
      grind
    . intro p hp
      have := hn upstream addr
      simp [HealthOp.acquires, HealthOp.releases] at this
      simp only [PeerHealth.decInFlight]
      omega

end HealthRegistry

end OpenRusty
