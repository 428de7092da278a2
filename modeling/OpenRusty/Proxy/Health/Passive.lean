import Mathlib.Algebra.Group.Nat.Defs
import Mathlib.Data.List.Induction
import OpenRusty.Lib.Machine
import OpenRusty.Proxy.Health.Active

/-!
This module contains the passive plane over time. A peer is watched while its failures and successes are
recorded, with a log of the events and of the failures that tripped the peer; the counters of the peer
are then described by what the log says.
-/

namespace OpenRusty

inductive PeerEvent where
  | failure (nowMs : Nat)
  | success (nowMs : Nat)
  | query (nowMs : Nat)
  deriving DecidableEq, Repr

namespace PeerEvent

def time (e : PeerEvent) : Nat :=
  match e with
  | .failure nowMs => nowMs
  | .success nowMs => nowMs
  | .query nowMs => nowMs

def failed (e : PeerEvent) : Option Nat :=
  match e with
  | .failure nowMs => some nowMs
  | _ => none

def succeeded (e : PeerEvent) : Bool :=
  match e with
  | .success _ => true
  | _ => false

end PeerEvent

namespace PeerHealth

variable (p : PeerHealth) (cfg : HealthConfig) (nowMs : Nat)

def stale : Bool := decide (Word.saturatingMul 64 cfg.failWindowS 1000 < nowMs - p.counters.windowStartMs)

def counted : PeerCounters :=
  let counters := if p.stale cfg nowMs then { fails := 0, windowStartMs := nowMs } else p.counters
  { counters with fails := counters.fails + 1 }

def trips : Bool :=
  (evaluateFailure (p.counted cfg nowMs).fails (p.counted cfg nowMs).windowStartMs nowMs cfg).isSome

theorem recordFailure_eq
    : p.recordFailure cfg nowMs
        =
      (evaluateFailure (p.counted cfg nowMs).fails (p.counted cfg nowMs).windowStartMs nowMs cfg).elim
        { p with counters := p.counted cfg nowMs }
        fun downUntil =>
          { p with counters := { p.counted cfg nowMs with fails := 0 }, downUntilMs := downUntil } := by
  unfold recordFailure counted stale
  simp only [decide_eq_true_iff]
  split
  . next hsome =>
    rw [hsome]
    rfl
  . next hnone =>
    rw [hnone]
    rfl

theorem counted_of_stale (h : p.stale cfg nowMs = true)
    : p.counted cfg nowMs = { fails := 1, windowStartMs := nowMs } := by
  unfold counted
  rw [if_pos h]

theorem counted_of_not_stale (h : p.stale cfg nowMs = false)
    : p.counted cfg nowMs = { p.counters with fails := p.counters.fails + 1 } := by
  unfold counted
  rw [if_neg (by simp [h])]

theorem window_counted
    : nowMs - (p.counted cfg nowMs).windowStartMs ≤ Word.saturatingMul 64 cfg.failWindowS 1000 := by
  cases h : p.stale cfg nowMs with
  | true =>
    rw [counted_of_stale p cfg nowMs h]
    dsimp only
    omega
  | false =>
    rw [counted_of_not_stale p cfg nowMs h]
    simpa [stale] using h

theorem evaluateFailure_counted (hmax : 1 ≤ cfg.maxFails)
    : evaluateFailure (p.counted cfg nowMs).fails (p.counted cfg nowMs).windowStartMs nowMs cfg
        =
      if cfg.maxFails ≤ (p.counted cfg nowMs).fails then
        some (Word.wrappingAdd 64 nowMs (Word.saturatingMul 64 cfg.failTimeoutS 1000))
      else
        none := by
  have hwindow := p.window_counted cfg nowMs
  unfold evaluateFailure
  rw [if_neg (by omega), if_neg (by omega)]

theorem trips_iff (hmax : 1 ≤ cfg.maxFails)
    : p.trips cfg nowMs = true ↔ cfg.maxFails ≤ (p.counted cfg nowMs).fails := by
  unfold trips
  rw [p.evaluateFailure_counted cfg nowMs hmax]
  by_cases h : cfg.maxFails ≤ (p.counted cfg nowMs).fails
  . simp [h]
  . simp [h]

theorem recordFailure_of_trips (hmax : 1 ≤ cfg.maxFails) (h : p.trips cfg nowMs = true)
    : p.recordFailure cfg nowMs = { p with
        counters := { p.counted cfg nowMs with fails := 0 }
        downUntilMs := Word.wrappingAdd 64 nowMs (Word.saturatingMul 64 cfg.failTimeoutS 1000) } := by
  rw [p.trips_iff cfg nowMs hmax] at h
  rw [recordFailure_eq, p.evaluateFailure_counted cfg nowMs hmax, if_pos h]
  rfl

theorem recordFailure_of_not_trips (hmax : 1 ≤ cfg.maxFails) (h : p.trips cfg nowMs = false)
    : p.recordFailure cfg nowMs = { p with counters := p.counted cfg nowMs } := by
  rw [Bool.eq_false_iff, Ne, p.trips_iff cfg nowMs hmax] at h
  rw [recordFailure_eq, p.evaluateFailure_counted cfg nowMs hmax, if_neg h]
  rfl

theorem fails_recordFailure (hmax : 1 ≤ cfg.maxFails)
    : (p.recordFailure cfg nowMs).counters.fails < cfg.maxFails := by
  cases htrips : p.trips cfg nowMs with
  | true =>
    rw [p.recordFailure_of_trips cfg nowMs hmax htrips]
    exact hmax
  | false =>
    rw [p.recordFailure_of_not_trips cfg nowMs hmax htrips]
    rw [Bool.eq_false_iff, Ne, p.trips_iff cfg nowMs hmax] at htrips
    exact Nat.lt_of_not_le htrips

def observe (e : PeerEvent) : PeerHealth :=
  match e with
  | .failure nowMs => p.recordFailure cfg nowMs
  | .success nowMs => p.recordSuccess nowMs
  | .query _ => p

def tripped (e : PeerEvent) : Bool :=
  match e with
  | .failure nowMs => p.trips cfg nowMs
  | _ => false

end PeerHealth

structure Watch where
  registry : HealthRegistry
  log : List (PeerEvent × Bool) := []

namespace Watch

variable (upstream : String) (idx : Nat) (cfg : HealthConfig)

def exec (h : HealthRegistry) (e : PeerEvent) : HealthRegistry :=
  match e with
  | .failure nowMs => h.recordFailure upstream idx cfg nowMs
  | .success nowMs => h.recordSuccess upstream idx nowMs
  | .query _ => h

def next (s : Watch) (e : PeerEvent) : Watch where
  registry := exec upstream idx cfg s.registry e
  log := s.log ++ [(e, (s.registry.slot upstream idx).any fun x => x.2.tripped cfg e)]

def watch (h : HealthRegistry) (es : List PeerEvent) : Watch :=
  es.foldl (next upstream idx cfg) { registry := h }

section slot

variable {upstream idx cfg} {h : HealthRegistry} {addr : SocketAddr} {p : PeerHealth}

theorem slot_exec (hmax : 1 ≤ cfg.maxFails) (hslot : h.slot upstream idx = some (addr, p)) (e : PeerEvent)
    : (exec upstream idx cfg h e).slot upstream idx = some (addr, p.observe cfg e) := by
  cases e with
  | failure nowMs =>
    unfold exec HealthRegistry.recordFailure
    dsimp only
    rw [if_neg (by omega), HealthRegistry.slot_modifyAt, if_pos ⟨rfl, rfl⟩, hslot]
    rfl
  | success nowMs =>
    unfold exec HealthRegistry.recordSuccess
    dsimp only
    rw [HealthRegistry.slot_modifyAt, if_pos ⟨rfl, rfl⟩, hslot]
    rfl
  | query nowMs => exact hslot

theorem slot_watch (hmax : 1 ≤ cfg.maxFails) (hslot : h.slot upstream idx = some (addr, p))
    (es : List PeerEvent)
    : (watch upstream idx cfg h es).registry.slot upstream idx = some (addr, es.foldl (·.observe cfg ·) p) := by
  induction es using List.reverseRecOn with
  | nil => exact hslot
  | append_singleton es e ih =>
    unfold watch at *
    rw [List.foldl_append, List.foldl_append]
    exact slot_exec hmax ih e

theorem log_watch_concat (hmax : 1 ≤ cfg.maxFails) (hslot : h.slot upstream idx = some (addr, p))
    (es : List PeerEvent) (e : PeerEvent)
    : (watch upstream idx cfg h (es ++ [e])).log
        =
      (watch upstream idx cfg h es).log ++ [(e, (es.foldl (·.observe cfg ·) p).tripped cfg e)] := by
  have hes := slot_watch hmax hslot es
  unfold watch at *
  rw [List.foldl_append]
  change _ ++ [(e, Option.any _ _)] = _
  rw [hes]
  rfl

end slot

abbrev Log := List (PeerEvent × Bool)

def failures (l : Log) : List Nat := l.filterMap fun x => x.1.failed

def Quiet (l : Log) : Prop := ∀ x ∈ l, x.1.succeeded = false ∧ x.2 = false

structure Counts (l : Log) (p : PeerHealth) : Prop where
  run : ∃ pre run, l = pre ++ run ∧ Quiet run ∧ (failures run).length = p.counters.fails
    ∧ ∀ u ∈ failures run, p.counters.windowStartMs ≤ u
  window : ∀ t, (∀ x ∈ l, x.1.time ≤ t) → p.counters.windowStartMs ≤ t

def Justified (cfg : HealthConfig) (l : Log) (t : Nat) : Prop :=
  ∃ pre run, l = pre ++ run ∧ Quiet run ∧ cfg.maxFails ≤ (failures run).length + 1
    ∧ ∀ u ∈ failures run, u ≤ t ∧ t ≤ u + cfg.failWindowS * 1000

section counts

variable {l : Log} {p : PeerHealth} {cfg}

theorem failures_append (l l' : Log) : failures (l ++ l') = failures l ++ failures l' := by
  apply List.filterMap_append

theorem time_of_mem_failures {u : Nat} (h : u ∈ failures l) : ∃ x ∈ l, x.1.time = u := by
  rcases List.mem_filterMap.mp h with ⟨⟨e, b⟩, hmem, hu⟩
  cases e with
  | failure nowMs =>
    cases hu
    exact ⟨_, hmem, rfl⟩
  | success nowMs => cases hu
  | query nowMs => cases hu

theorem Quiet.concat {run : Log} (h : Quiet run) {e : PeerEvent} (he : e.succeeded = false)
    : Quiet (run ++ [(e, false)]) := by
  intro x hx
  rcases List.mem_append.mp hx with hx | hx
  . exact h x hx
  . cases List.mem_singleton.mp hx
    exact ⟨he, rfl⟩

theorem Counts.reset {x : PeerEvent × Bool} {q : PeerHealth} (hfails : q.counters.fails = 0)
    (hwindow : ∀ t, (∀ y ∈ l ++ [x], y.1.time ≤ t) → q.counters.windowStartMs ≤ t)
    : Counts (l ++ [x]) q where
  run := ⟨l ++ [x], [], by simp, by simp [Quiet], hfails.symm, by simp [failures]⟩
  window := hwindow

theorem window_observe (h : Counts l p) (t : Nat) {b : Bool} {u : Nat}
    (hu : ∀ y ∈ l ++ [(PeerEvent.failure t, b)], y.1.time ≤ u)
    : (p.counted cfg t).windowStartMs ≤ u := by
  cases hstale : p.stale cfg t with
  | true =>
    rw [p.counted_of_stale cfg t hstale]
    exact hu (.failure t, b) (by simp)
  | false =>
    rw [p.counted_of_not_stale cfg t hstale]
    apply h.window
    intro y hy
    apply hu
    simp [hy]

theorem Counts.failure (h : Counts l p) (cfg : HealthConfig) {t : Nat} (ht : ∀ x ∈ l, x.1.time ≤ t)
    : ∃ pre run, l = pre ++ run ∧ Quiet run
      ∧ (failures run).length + 1 = (p.counted cfg t).fails
      ∧ (∀ u ∈ failures run, (p.counted cfg t).windowStartMs ≤ u)
      ∧ (p.counted cfg t).windowStartMs ≤ t := by
  cases hstale : p.stale cfg t with
  | true =>
    rw [p.counted_of_stale cfg t hstale]
    exact ⟨l, [], by simp, by simp [Quiet], by simp [failures], by simp [failures], Nat.le_refl t⟩
  | false =>
    rw [p.counted_of_not_stale cfg t hstale]
    rcases h.run with ⟨pre, run, hl, hquiet, hlen, hwindow⟩
    exact ⟨pre, run, hl, hquiet, by rw [hlen], hwindow, h.window t ht⟩

theorem Counts.justified (h : Counts l p) (hmax : 1 ≤ cfg.maxFails) {t : Nat}
    (ht : ∀ x ∈ l, x.1.time ≤ t) (htrips : p.trips cfg t = true)
    : Justified cfg l t := by
  rw [p.trips_iff cfg t hmax] at htrips
  rcases h.failure cfg ht with ⟨pre, run, hl, hquiet, hlen, hwindow, hstart⟩
  refine ⟨pre, run, hl, hquiet, by omega, ?_⟩
  intro u hu
  have hle : u ≤ t := by
    rcases time_of_mem_failures hu with ⟨x, hx, rfl⟩
    apply ht
    rw [hl]
    simp [hx]
  have hspan := p.window_counted cfg t
  have := hwindow u hu
  have hmul : Word.saturatingMul 64 cfg.failWindowS 1000 ≤ cfg.failWindowS * 1000 := Nat.min_le_left ..
  omega

theorem Counts.observe (h : Counts l p) (hmax : 1 ≤ cfg.maxFails) {e : PeerEvent}
    (he : ∀ x ∈ l, x.1.time ≤ e.time)
    : Counts (l ++ [(e, p.tripped cfg e)]) (p.observe cfg e) := by
  cases e with
  | query nowMs =>
    rcases h.run with ⟨pre, run, hl, hquiet, hlen, hwindow⟩
    have hfailures : failures (run ++ [(.query nowMs, false)]) = failures run := by
      rw [failures_append]
      apply List.append_nil
    constructor
    . refine ⟨pre, run ++ [(.query nowMs, false)], by simp [hl, PeerHealth.tripped], hquiet.concat rfl, ?_⟩
      rw [hfailures]
      exact ⟨hlen, hwindow⟩
    . intro t ht
      apply h.window
      intro x hx
      apply ht
      simp [hx]
  | success nowMs =>
    apply Counts.reset
    . rfl
    . intro t ht
      exact ht (.success nowMs, false) (List.mem_append_right l (List.mem_singleton.mpr rfl))
  | failure nowMs =>
    change Counts (l ++ [(.failure nowMs, p.trips cfg nowMs)]) (p.recordFailure cfg nowMs)
    -- A trip empties the window, any other failure either stays in it or begins the next one.
    cases htrips : p.trips cfg nowMs with
    | true =>
      rw [p.recordFailure_of_trips cfg nowMs hmax htrips]
      apply Counts.reset
      . rfl
      . intro t ht
        exact window_observe h nowMs ht
    | false =>
      rw [p.recordFailure_of_not_trips cfg nowMs hmax htrips]
      rcases h.failure cfg he with ⟨pre, run, hl, hquiet, hlen, hwindow, hstart⟩
      constructor
      . refine ⟨pre, run ++ [(.failure nowMs, false)], by simp [hl], hquiet.concat rfl, ?_, ?_⟩
        . rw [failures_append, List.length_append]
          exact hlen
        . intro u hu
          rw [failures_append, List.mem_append] at hu
          rcases hu with hu | hu
          . exact hwindow u hu
          . cases List.mem_singleton.mp hu
            exact hstart
      . intro t ht
        exact window_observe h nowMs ht

end counts

def DownBy (cfg : HealthConfig) (l : Log) (p : PeerHealth) : Prop :=
  ∀ l₁ t l₂, l = l₁ ++ (.failure t, true) :: l₂ → (∀ x ∈ l₂, x.2 = false) →
    p.downUntilMs = Word.wrappingAdd 64 t (Word.saturatingMul 64 cfg.failTimeoutS 1000)

theorem eq_concat_cases {α : Type} {l l₁ l₂ : List α} {x y : α} (h : l ++ [x] = l₁ ++ y :: l₂)
    : l = l₁ ∧ x = y ∧ l₂ = [] ∨ ∃ l₃, l₂ = l₃ ++ [x] ∧ l = l₁ ++ y :: l₃ := by
  induction l₂ using List.reverseRecOn with
  | nil =>
    rcases List.append_inj' h rfl with ⟨rfl, hx⟩
    cases hx
    exact .inl ⟨rfl, rfl, rfl⟩
  | append_singleton l₃ z _ =>
    rw [← List.cons_append, ← List.append_assoc] at h
    rcases List.append_inj' h rfl with ⟨rfl, hx⟩
    cases hx
    exact .inr ⟨l₃, rfl, rfl⟩

theorem downUntilMs_observe {cfg : HealthConfig} (hmax : 1 ≤ cfg.maxFails) (p : PeerHealth) (e : PeerEvent)
    : (p.observe cfg e).downUntilMs
        =
      if p.tripped cfg e then
        Word.wrappingAdd 64 e.time (Word.saturatingMul 64 cfg.failTimeoutS 1000)
      else
        p.downUntilMs := by
  cases e with
  | query nowMs => rfl
  | success nowMs => rfl
  | failure nowMs =>
    change (p.recordFailure cfg nowMs).downUntilMs = if p.trips cfg nowMs then _ else _
    cases htrips : p.trips cfg nowMs with
    | true =>
      rw [p.recordFailure_of_trips cfg nowMs hmax htrips]
      rfl
    | false =>
      rw [p.recordFailure_of_not_trips cfg nowMs hmax htrips]
      rfl

theorem DownBy.observe {cfg : HealthConfig} {l : Log} {p : PeerHealth} (h : DownBy cfg l p)
    (hmax : 1 ≤ cfg.maxFails) (e : PeerEvent)
    : DownBy cfg (l ++ [(e, p.tripped cfg e)]) (p.observe cfg e) := by
  intro l₁ t l₂ hl hlater
  rw [downUntilMs_observe hmax]
  rcases eq_concat_cases hl with ⟨-, hx, -⟩ | ⟨l₃, rfl, hl'⟩
  . rw [Prod.mk.injEq] at hx
    rcases hx with ⟨rfl, htrips⟩
    rw [if_pos htrips]
    rfl
  . have hnot := hlater (e, p.tripped cfg e) (by simp)
    rw [if_neg (Bool.eq_false_iff.mp hnot)]
    apply h l₁ t l₃ hl'
    intro x hx
    apply hlater
    simp [hx]

structure Sound (cfg : HealthConfig) (p₀ : PeerHealth) (l : Log) (p : PeerHealth) : Prop where
  counts : Counts l p
  justified : ∀ l₁ t l₂, l = l₁ ++ (.failure t, true) :: l₂ → Justified cfg l₁ t
  down : DownBy cfg l p
  activeOk : p.activeOk = p₀.activeOk

theorem Sound.observe {cfg : HealthConfig} {p₀ : PeerHealth} {l : Log} {p : PeerHealth}
    (h : Sound cfg p₀ l p) (hmax : 1 ≤ cfg.maxFails) {e : PeerEvent} (he : ∀ x ∈ l, x.1.time ≤ e.time)
    : Sound cfg p₀ (l ++ [(e, p.tripped cfg e)]) (p.observe cfg e) where
  counts := h.counts.observe hmax he
  justified := by
    intro l₁ t l₂ hl
    rcases eq_concat_cases hl with ⟨rfl, hx, -⟩ | ⟨l₃, -, hl⟩
    . rw [Prod.mk.injEq] at hx
      rcases hx with ⟨rfl, htrips⟩
      exact h.counts.justified hmax he htrips
    . exact h.justified l₁ t l₃ hl
  down := h.down.observe hmax e
  activeOk := by
    rw [← h.activeOk]
    cases e with
    | failure nowMs => apply HealthRegistry.activeOk_recordFailure
    | success nowMs => rfl
    | query nowMs => rfl

section watch

variable {upstream : String} {idx : Nat} {cfg : HealthConfig} {h : HealthRegistry} {addr : SocketAddr}
  {p : PeerHealth}

theorem events_watch (hmax : 1 ≤ cfg.maxFails) (hslot : h.slot upstream idx = some (addr, p))
    (es : List PeerEvent)
    : (watch upstream idx cfg h es).log.map Prod.fst = es := by
  induction es using List.reverseRecOn with
  | nil => rfl
  | append_singleton es e ih =>
    rw [log_watch_concat hmax hslot, List.map_append, ih]
    rfl

theorem sound_watch (hmax : 1 ≤ cfg.maxFails) (hslot : h.slot upstream idx = some (addr, p))
    (hfresh : p.counters = {}) {es : List PeerEvent} (hclock : (es.map PeerEvent.time).Pairwise (· ≤ ·))
    : Sound cfg p (watch upstream idx cfg h es).log (es.foldl (·.observe cfg ·) p) := by
  induction es using List.reverseRecOn with
  | nil =>
    constructor
    . constructor
      . refine ⟨[], [], rfl, by simp [Quiet], ?_, by simp [failures]⟩
        change _ = p.counters.fails
        rw [hfresh]
        rfl
      . intro t _
        change p.counters.windowStartMs ≤ t
        rw [hfresh]
        apply Nat.zero_le
    . intro l₁ t l₂ hl
      exact absurd hl (by simp [watch])
    . intro l₁ t l₂ hl
      exact absurd hl (by simp [watch])
    . rfl
  | append_singleton es e ih =>
    rw [List.map_append, List.pairwise_append] at hclock
    rw [log_watch_concat hmax hslot, List.foldl_append]
    apply (ih hclock.1).observe hmax
    intro x hx
    apply hclock.2.2
    . have hmem : x.1 ∈ (watch upstream idx cfg h es).log.map Prod.fst := List.mem_map_of_mem hx
      rw [events_watch hmax hslot] at hmem
      exact List.mem_map_of_mem hmem
    . simp

theorem isHealthy_watch (hmax : 1 ≤ cfg.maxFails) (hslot : h.slot upstream idx = some (addr, p))
    (hfresh : p.counters = {}) {es : List PeerEvent} (hclock : (es.map PeerEvent.time).Pairwise (· ≤ ·))
    (hactive : p.activeOk = true) {t : Nat} (ht : t + cfg.failTimeoutS * 1000 < 2 ^ 64) {l₁ l₂ : Log}
    (hlog : (watch upstream idx cfg h es).log = l₁ ++ (.failure t, true) :: l₂)
    (hlast : ∀ x ∈ l₂, x.2 = false) (now : Nat)
    : (watch upstream idx cfg h es).registry.isHealthy upstream idx now = false
      ↔ now < t + cfg.failTimeoutS * 1000 := by
  have hsound := sound_watch hmax hslot hfresh hclock
  have hdown := hsound.down l₁ t l₂ hlog hlast
  have hmul : Word.saturatingMul 64 cfg.failTimeoutS 1000 = cfg.failTimeoutS * 1000 := by
    unfold Word.saturatingMul Word.max
    omega
  rw [hmul, Word.wrappingAdd_eq ht] at hdown
  rw [HealthRegistry.isHealthy_eq, slot_watch hmax hslot, Option.all_some]
  unfold PeerHealth.isUp
  rw [hsound.activeOk, hactive, hdown, Bool.and_true, decide_eq_false_iff_not]
  omega

end watch

end Watch

theorem HealthRegistry.mem_healthyIndices {h : HealthRegistry} {upstream : String} {idx peerCount now : Nat}
    (hidx : idx < peerCount)
    : idx ∉ h.healthyIndices upstream peerCount now ↔ h.isHealthy upstream idx now = false := by
  rw [healthyIndices_eq, List.mem_filter, List.mem_range]
  simp [hidx]

theorem passive_sound (h : HealthRegistry) (upstream : String) (idx : Nat) (cfg : HealthConfig)
    (addr : SocketAddr) (p : PeerHealth) (hslot : h.slot upstream idx = some (addr, p))
    (hfresh : p.counters = {}) (hmax : 1 ≤ cfg.maxFails) (es : List PeerEvent)
    (hclock : (es.map PeerEvent.time).Pairwise (· ≤ ·))
    : let s := Watch.watch upstream idx cfg h es
      ∀ l₁ t l₂, s.log = l₁ ++ (.failure t, true) :: l₂ →
        Watch.Justified cfg l₁ t
        ∧ (p.activeOk = true → t + cfg.failTimeoutS * 1000 < 2 ^ 64 → (∀ x ∈ l₂, x.2 = false) →
          ∀ now,
            (s.registry.isHealthy upstream idx now = false ↔ now < t + cfg.failTimeoutS * 1000)
            ∧ ∀ peerCount, idx < peerCount →
              (idx ∉ s.registry.healthyIndices upstream peerCount now
                ↔ now < t + cfg.failTimeoutS * 1000)) := by
  intro s l₁ t l₂ hlog
  refine ⟨(Watch.sound_watch hmax hslot hfresh hclock).justified l₁ t l₂ hlog, ?_⟩
  intro hactive ht hlast now
  have hhealthy := Watch.isHealthy_watch hmax hslot hfresh hclock hactive ht hlog hlast now
  refine ⟨hhealthy, ?_⟩
  intro peerCount hidx
  rw [HealthRegistry.mem_healthyIndices hidx]
  exact hhealthy

theorem passive_sound_two_failures
    : let h := HealthRegistry.new.register "api" [peerA]
      let cfg : HealthConfig := { maxFails := 2 }
      let s := Watch.watch "api" 0 cfg h [.failure 20000, .query 20500, .failure 21000, .success 22000]
      s.log = [(.failure 20000, false), (.query 20500, false), (.failure 21000, true), (.success 22000, false)]
        ∧ Watch.Justified cfg [(.failure 20000, false), (.query 20500, false)] 21000
        ∧ ∀ now, s.registry.isHealthy "api" 0 now = false ↔ now < 21000 + cfg.failTimeoutS * 1000 := by
  intro h cfg s
  have hlog : s.log = [(.failure 20000, false), (.query 20500, false), (.failure 21000, true),
      (.success 22000, false)] := by
    decide
  have hsound := passive_sound h "api" 0 cfg peerA {} rfl rfl (by decide)
    [.failure 20000, .query 20500, .failure 21000, .success 22000] (by decide)
    [(.failure 20000, false), (.query 20500, false)] 21000 [(.success 22000, false)] hlog
  refine ⟨hlog, hsound.1, ?_⟩
  intro now
  exact (hsound.2 rfl (by decide) (by decide) now).1

end OpenRusty
