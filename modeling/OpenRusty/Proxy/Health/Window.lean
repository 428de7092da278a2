import OpenRusty.Proxy.Health.Passive

/-!
This module contains what the passive plane misses. A peer keeps the start of one window and a count, no failure
times: a failure that comes when the window is over forgets the failures before it, and a trip forgets those that it
was made of. If nothing recent is forgotten when a failure finds the peer up, the last failure of every burst trips
the peer.
-/

namespace OpenRusty

namespace Watch

variable (upstream : String) (idx : Nat) (cfg : HealthConfig)

def step (s : Watch) (e : PeerEvent) : Option Watch := some (s.next upstream idx cfg e)

def streak (l : Log) : List Nat :=
  l.foldl (fun us x => if x.1.succeeded then [] else us ++ x.1.failed.toList) []

def kept (p : PeerHealth) (nowMs : Nat) : Nat := if p.stale cfg nowMs then 0 else p.counters.fails

def forgotten (l : Log) (k : Nat) : List Nat := (streak l).take ((streak l).length - k)

/-- A failure that finds the peer up comes when all forgotten failures are out of the window. -/
def ForgetsNothing (s : Watch) (e : PeerEvent) : Prop :=
  ∀ x ∈ s.registry.slot upstream idx, ∀ t ∈ e.failed, x.2.downUntilMs ≤ t →
    ∀ u ∈ forgotten s.log (kept cfg x.2 t), u + cfg.failWindowS * 1000 < t

instance (s : Watch) (e : PeerEvent) : Decidable (s.ForgetsNothing upstream idx cfg e) :=
  inferInstanceAs (Decidable (∀ x ∈ s.registry.slot upstream idx, ∀ t ∈ e.failed, x.2.downUntilMs ≤ t →
    ∀ u ∈ forgotten s.log (kept cfg x.2 t), u + cfg.failWindowS * 1000 < t))

theorem streak_append {l g : Log} (h : ∀ x ∈ g, x.1.succeeded = false)
    : streak (l ++ g) = streak l ++ failures g := by
  induction g using List.reverseRecOn with
  | nil => simp [failures]
  | append_singleton g x ih =>
    have hstreak : streak (l ++ (g ++ [x])) = streak (l ++ g) ++ x.1.failed.toList := by
      unfold streak
      rw [← List.append_assoc, List.foldl_append]
      simp [h x]
    rw [hstreak, ih fun y hy => h y (by simp [hy]), failures_append, List.append_assoc]
    congr 2

theorem fails_counted (p : PeerHealth) (nowMs : Nat)
    : (p.counted cfg nowMs).fails = kept cfg p nowMs + 1 := by
  unfold kept
  cases hstale : p.stale cfg nowMs with
  | true => rw [p.counted_of_stale cfg nowMs hstale]; rfl
  | false => rw [p.counted_of_not_stale cfg nowMs hstale]; rfl

theorem length_failures_le_kept {cfg : HealthConfig} {p : PeerHealth} {l g : Log} {t : Nat}
    (hforget : ∀ u ∈ forgotten (l ++ g) (kept cfg p t), u + cfg.failWindowS * 1000 < t)
    (hsuccess : ∀ x ∈ g, x.1.succeeded = false)
    (hspan : ∀ u ∈ failures g, t ≤ u + cfg.failWindowS * 1000)
    : (failures g).length ≤ kept cfg p t := by
  by_contra hlt
  match hfailures : failures g with
  | [] => simp [hfailures] at hlt
  | u :: us =>
    have hmem : u ∈ forgotten (l ++ g) (kept cfg p t) := by
      rw [hfailures, List.length_cons] at hlt
      rw [forgotten, streak_append hsuccess, hfailures]
      apply List.mem_take_iff_getElem.mpr
      refine ⟨(streak l).length, ?_, ?_⟩
      . simp
        omega
      . simp
    have hold := hforget u hmem
    have hnew := hspan u (by simp [hfailures])
    omega

section watch

variable {upstream idx cfg} {h : HealthRegistry} {addr : SocketAddr} {p : PeerHealth}

theorem run_watch (es : List PeerEvent)
    : Machine.run (step upstream idx cfg) { registry := h } es = some (watch upstream idx cfg h es) := by
  unfold watch
  generalize ({ registry := h } : Watch) = s
  induction es generalizing s with
  | nil => rfl
  | cons e es ih => exact ih (s.next upstream idx cfg e)

theorem log_watch_prefix (hmax : 1 ≤ cfg.maxFails) (hslot : h.slot upstream idx = some (addr, p))
    (es es' : List PeerEvent)
    : (watch upstream idx cfg h es).log <+: (watch upstream idx cfg h (es ++ es')).log := by
  induction es' using List.reverseRecOn with
  | nil => simp
  | append_singleton es' e ih =>
    rw [← List.append_assoc, log_watch_concat hmax hslot]
    exact ih.trans (List.prefix_append _ _)

theorem log_watch_of_append (hmax : 1 ≤ cfg.maxFails) (hslot : h.slot upstream idx = some (addr, p))
    {es : List PeerEvent} {l l' : Log} (hlog : (watch upstream idx cfg h es).log = l ++ l')
    : (watch upstream idx cfg h (l.map Prod.fst)).log = l := by
  have hevents := events_watch hmax hslot es
  rw [hlog, List.map_append] at hevents
  have hprefix := log_watch_prefix hmax hslot (l.map Prod.fst) (l'.map Prod.fst)
  rw [hevents, hlog] at hprefix
  have hlength : (watch upstream idx cfg h (l.map Prod.fst)).log.length = l.length := by
    have hmap := congrArg List.length (events_watch hmax hslot (l.map Prod.fst))
    simpa using hmap
  exact (List.prefix_of_prefix_length_le hprefix (List.prefix_append l l') (Nat.le_of_eq hlength)).eq_of_length
    hlength

end watch

end Watch

theorem passive_complete (h : HealthRegistry) (upstream : String) (idx : Nat) (cfg : HealthConfig)
    (addr : SocketAddr) (p : PeerHealth) (hslot : h.slot upstream idx = some (addr, p))
    (hmax : 1 ≤ cfg.maxFails) (es : List PeerEvent)
    (hok : Machine.Guarded (Watch.step upstream idx cfg) (Watch.ForgetsNothing upstream idx cfg)
      { registry := h } es)
    : ∀ l₁ g t tripped l₂,
        (Watch.watch upstream idx cfg h es).log = l₁ ++ g ++ [(.failure t, tripped)] ++ l₂ →
        (∀ x ∈ g, x.1.succeeded = false) → cfg.maxFails ≤ (Watch.failures g).length + 1 →
        (∀ u ∈ Watch.failures g, t ≤ u + cfg.failWindowS * 1000) →
        tripped = true
          ∨ (Watch.watch upstream idx cfg h ((l₁ ++ g).map Prod.fst)).registry.passiveHealthy upstream idx t
            = false := by
  intro l₁ g t tripped l₂ hlog hsuccess hcount hspan
  have hrest : (Watch.watch upstream idx cfg h es).log = l₁ ++ g ++ ([(.failure t, tripped)] ++ l₂) := by
    rw [hlog, List.append_assoc]
  have hbefore := Watch.log_watch_of_append hmax hslot hrest
  have hslot' := Watch.slot_watch hmax hslot ((l₁ ++ g).map Prod.fst)
  generalize hp' : ((l₁ ++ g).map Prod.fst).foldl (·.observe cfg ·) p = p' at hslot'
  have htripped : tripped = p'.trips cfg t := by
    have hafter := Watch.log_watch_of_append hmax hslot hlog
    rw [List.map_append, List.map_singleton, Watch.log_watch_concat hmax hslot, hbefore, hp'] at hafter
    exact (Prod.mk.inj (List.singleton_inj.mp (List.append_cancel_left hafter))).2.symm
  -- A peer that is still down answers the second alternative, else nothing of the burst was forgotten.
  by_cases hup : p'.downUntilMs ≤ t
  . left
    have hes : es = (l₁ ++ g).map Prod.fst ++ .failure t :: l₂.map Prod.fst := by
      rw [← Watch.events_watch hmax hslot es, hlog]
      simp
    rw [hes] at hok
    have hguard := (hok.of_append.2 _ (Watch.run_watch _)).1 _ hslot' t rfl hup
    rw [hbefore] at hguard
    have hkept : (Watch.failures g).length ≤ Watch.kept cfg p' t :=
      Watch.length_failures_le_kept hguard hsuccess hspan
    rw [htripped, p'.trips_iff cfg t hmax, Watch.fails_counted]
    omega
  . right
    unfold HealthRegistry.passiveHealthy
    rw [hslot']
    simpa using hup

theorem passive_complete_three_failures
    : let h := HealthRegistry.new.register "api" [peerA]
      let cfg : HealthConfig := {}
      let s := Watch.watch "api" 0 cfg h [.failure 20000, .failure 25000, .failure 30000, .failure 31000]
      s.log = [(.failure 20000, false), (.failure 25000, false), (.failure 30000, true), (.failure 31000, false)]
        ∧ (Watch.watch "api" 0 cfg h [.failure 20000, .failure 25000, .failure 30000]).registry.passiveHealthy "api" 0
          31000 = false := by
  intro h cfg s
  have hlog : s.log = [(.failure 20000, false), (.failure 25000, false), (.failure 30000, true),
      (.failure 31000, false)] := by
    decide
  have hcomplete := passive_complete h "api" 0 cfg peerA {} rfl (by decide)
    [.failure 20000, .failure 25000, .failure 30000, .failure 31000] (by decide)
    [(.failure 20000, false)] [(.failure 25000, false), (.failure 30000, true)] 31000 false [] hlog
    (by decide) (by decide) (by decide)
  exact ⟨hlog, hcomplete.resolve_left (by decide)⟩

theorem passive_misses_burst
    : let h := HealthRegistry.new.register "api" [peerA]
      let cfg : HealthConfig := { maxFails := 2 }
      let s := Watch.watch "api" 0 cfg h [.success 100000, .failure 109000, .failure 111000]
      s.log = [(.success 100000, false), (.failure 109000, false), (.failure 111000, false)]
        ∧ 111000 ≤ 109000 + cfg.failWindowS * 1000
        ∧ cfg.maxFails = (Watch.failures [(.failure 109000, false), (.failure 111000, false)]).length
        ∧ ∀ now, s.registry.isHealthy "api" 0 now = true := by
  intro h cfg s
  refine ⟨by decide, by decide, rfl, ?_⟩
  intro now
  have hslot : s.registry.slot "api" 0
      = some (peerA, { counters := { fails := 1, windowStartMs := 111000 } }) := by
    decide
  rw [HealthRegistry.isHealthy_eq, hslot]
  simp [PeerHealth.isUp]

end OpenRusty
