import OpenRusty.Server.Shutdown.Lemmas

/-!
This module contains what a shutdown comes to, over every order in which the accept loops, the connections,
the endpoint and the caller of `run` take their steps: what the report says of the connections, that a drain
that was not cut off leaves nothing behind, which connections are told to drain, and that no loop misses the signal.
-/

namespace OpenRusty

namespace Shutdown

def Phase.begun (phase : Phase) : Option (Bool × Nat) :=
  match phase with
  | .serving | .reported _ _ => none
  | .loaded fast atSignal | .settling fast atSignal _ _ | .waited fast atSignal _ _ => some (fast, atSignal)
  | .polling atSignal _ => some (false, atSignal)

namespace Gateway

variable {g g' : Gateway}

def released (g : Gateway) : Nat := g.conns.countP Conn.isReleased

def unfinished (g : Gateway) : Nat := g.conns.countP Conn.counted

theorem released_add_unfinished (g : Gateway) : g.released + g.unfinished = g.conns.length := by
  rw [List.length_eq_countP_add_countP Conn.isReleased, released, unfinished]
  congr 1
  apply List.countP_congr
  intro c _
  simp [Conn.counted, Conn.isReleased]

theorem phase_of_step {e : Event} (h : g.step e = some g')
    : g'.phase = g.phase ∨ ∃ re, e = .run re ∧ g.runStep re = some g' := by
  obtain ⟨_, _, _, _, _, -, -, -, rfl⟩ | ⟨_, _, _, _, -, -, -, rfl⟩ | ⟨re, rfl, hre⟩ | ⟨-, rfl⟩ | ⟨-, rfl⟩ :=
    step_cases h
  . exact .inl rfl
  . exact .inl rfl
  . exact .inr ⟨re, rfl, hre⟩
  . exact .inl rfl
  . exact .inl rfl

theorem begun_of_runStep {e : RunEvent} {p : Bool × Nat} (hp : g.phase.begun = some p) (h : g.runStep e = some g')
    : g'.phase.begun = some p ∨ ∃ fast r, g'.phase = .reported fast r := by
  unfold runStep at h
  split at h
  . next hphase =>
    rw [hphase] at hp
    cases hp
  . next hphase =>
    rw [hphase] at hp
    cases h
    exact .inl hp
  . next hphase =>
    rw [hphase] at hp
    split at h
    . obtain ⟨ok, -, rfl⟩ := Option.map_eq_some_iff.mp h
      exact .inl hp
    . split at h
      . next hfast =>
        cases h
        subst hfast
        exact .inl hp
      . next hfast =>
        cases h
        rw [Bool.not_eq_true] at hfast
        subst hfast
        exact .inl hp
  . next hphase =>
    split at h
    . cases h
      exact .inl hp
    . rw [hphase] at hp
      cases h
      exact .inl hp
  . next hphase =>
    rw [hphase] at hp
    cases h
    exact .inl hp
  . next hphase =>
    rw [hphase] at hp
    cases h
    exact .inl hp
  . cases h
    exact .inr ⟨_, _, rfl⟩
  . cases h

theorem begun_of_run {es : List Event} {p : Bool × Nat} (hp : g.phase.begun = some p)
    (h : Machine.run step g es = some g')
    : g'.phase.begun = some p ∨ ∃ fast r, g'.phase = .reported fast r := by
  apply Machine.inv_of_run_all (I := fun g => g.phase.begun = some p ∨ ∃ fast r, g.phase = .reported fast r) _ _ h
  . intro g e g' hg hstep
    rcases phase_of_step hstep with hphase | ⟨re, -, hre⟩
    . rwa [hphase]
    . rcases hg with hbegun | ⟨fast, r, hphase⟩
      . exact begun_of_runStep hbegun hre
      . simp [runStep, hphase] at hre
  . exact .inl hp

theorem conns_mono {e : Event} (h : g.step e = some g')
    : g.released ≤ g'.released ∧ g.conns.length ≤ g'.conns.length := by
  obtain ⟨_, _, _, _, c, -, -, -, rfl⟩ | ⟨j, ce, c, c', -, hc, hr, rfl⟩ | ⟨re, -, hre⟩ | ⟨-, rfl⟩ | ⟨-, rfl⟩ :=
    step_cases h
  . simp [released]
  . refine ⟨?_, by simp⟩
    have hset := countP_set_add (p := Conn.isReleased) (b := c') hc
    have hkeep : c.isReleased = false := by
      by_contra hne
      have hrel : c.status = .released := by simpa [Conn.isReleased] using hne
      simp [serveConn, hrel] at hr
    rw [hkeep] at hset
    simp only [released]
    simp at hset
    omega
  . obtain ⟨-, hconns, -, -⟩ := runStep_frame hre
    rw [released, released, hconns]
    exact ⟨Nat.le_refl _, Nat.le_refl _⟩
  . exact ⟨Nat.le_refl _, Nat.le_refl _⟩
  . exact ⟨Nat.le_refl _, Nat.le_refl _⟩

theorem conns_mono_run {es : List Event} (h : Machine.run step g es = some g')
    : g.released ≤ g'.released ∧ g.conns.length ≤ g'.conns.length := by
  apply Machine.inv_of_run_all
    (I := fun x => g.released ≤ x.released ∧ g.conns.length ≤ x.conns.length) _ _ h
  . intro x e y hx hstep
    have hxy := conns_mono hstep
    omega
  . exact ⟨Nat.le_refl _, Nat.le_refl _⟩

theorem summary_cases (h : g.step (.run .summary) = some g')
    : ∃ fast atSignal timedOut taskErrors, g.phase = .waited fast atSignal timedOut taskErrors
        ∧ g' = { g with phase := .reported fast (summary fast atSignal g.inFlight timedOut taskErrors) } := by
  simp only [step, runStep] at h
  split at h
  all_goals first
    | contradiction
    | cases h
      exact ⟨_, _, _, _, by assumption, rfl⟩

theorem quiet_of_step {e : Event} (hquiet : g.Quiet) (h : g.step e = some g')
    : g'.loops = g.loops ∧ g'.conns = g.conns := by
  obtain ⟨i, le, l, l', c, -, hl, hr, rfl⟩ | ⟨j, ce, c, c', -, hc, hr, rfl⟩ | ⟨re, -, hre⟩ | ⟨-, rfl⟩ | ⟨-, rfl⟩ :=
    step_cases h
  . obtain ⟨ok, hok⟩ := hquiet.1 l (List.mem_of_getElem? hl)
    simp [serveListener, hok] at hr
  . have hrel := hquiet.2 c (List.mem_of_getElem? hc)
    simp [serveConn, hrel] at hr
  . exact ⟨(runStep_frame hre).1, (runStep_frame hre).2.1⟩
  . exact ⟨rfl, rfl⟩
  . exact ⟨rfl, rfl⟩

theorem quiet_of_run {es : List Event} (hquiet : g.Quiet) (h : Machine.run step g es = some g')
    : g'.loops = g.loops ∧ g'.conns = g.conns := by
  apply Machine.inv_of_run_all (I := fun x => x.loops = g.loops ∧ x.conns = g.conns) _ ⟨rfl, rfl⟩ h
  intro x e y hx hstep
  have hquietx : x.Quiet := by
    unfold Quiet
    rw [hx.1, hx.2]
    exact hquiet
  have hy := quiet_of_step hquietx hstep
  rw [hy.1, hy.2]
  exact hx

theorem conn_of_step {e : Event} {j : Nat} {c : Conn} (h : g.step e = some g') (hj : g.conns[j]? = some c)
    : ∃ c', g'.conns[j]? = some c' ∧ (c' = c ∨ ∃ ce, serveConn g.signal c ce = some c') := by
  have hlt := (List.getElem?_eq_some_iff.mp hj).1
  obtain ⟨_, _, _, _, d, -, -, -, rfl⟩ | ⟨k, ce, d, d', -, hd, hr, rfl⟩ | ⟨re, -, hre⟩ | ⟨-, rfl⟩ | ⟨-, rfl⟩ :=
    step_cases h
  . refine ⟨c, ?_, .inl rfl⟩
    dsimp only
    rw [List.getElem?_append_left hlt]
    exact hj
  . by_cases hjk : k = j
    . subst hjk
      rw [hj] at hd
      cases hd
      exact ⟨d', by simp [hlt], .inr ⟨ce, hr⟩⟩
    . exact ⟨c, by simpa [List.getElem?_set_ne hjk] using hj, .inl rfl⟩
  . exact ⟨c, by rw [(runStep_frame hre).2.1]; exact hj, .inl rfl⟩
  . exact ⟨c, hj, .inl rfl⟩
  . exact ⟨c, hj, .inl rfl⟩

theorem drains_of_serveConn {w : WatchCell Bool} {c c' : Conn} {ce : ConnEvent} (h : serveConn w c ce = some c')
    : c.drains ≤ c'.drains := by
  obtain ⟨-, -, rfl⟩ | ⟨-, -, r, -, rfl⟩ | ⟨-, -, rfl⟩ | ⟨-, -, -, rfl | rfl | rfl⟩ := serveConn_cases h
  . exact Nat.le_refl _
  . exact Nat.le_succ _
  all_goals exact Nat.le_refl _

theorem drains_mono_run {es : List Event} {j : Nat} {c : Conn} (h : Machine.run step g es = some g')
    (hj : g.conns[j]? = some c)
    : ∃ c', g'.conns[j]? = some c' ∧ c.drains ≤ c'.drains := by
  apply Machine.inv_of_run_all (I := fun x => ∃ c', x.conns[j]? = some c' ∧ c.drains ≤ c'.drains) _ _ h
  . intro x e y hx hstep
    obtain ⟨d, hd, hle⟩ := hx
    obtain ⟨d', hd', heq⟩ := conn_of_step hstep hd
    refine ⟨d', hd', ?_⟩
    rcases heq with rfl | ⟨ce, hr⟩
    . exact hle
    . exact Nat.le_trans hle (drains_of_serveConn hr)
  . exact ⟨c, hj, Nat.le_refl _⟩

def Deaf (c : Conn) : Prop := c.drains = 0 ∧ c.status ≠ .driven false

theorem deaf_of_serveConn {w : WatchCell Bool} (hup : Up w) {c c' : Conn} {ce : ConnEvent} (hc : Deaf c)
    (h : serveConn w c ce = some c')
    : Deaf c' := by
  obtain ⟨-, -, rfl⟩ | ⟨hdriven, -⟩ | ⟨-, -, rfl⟩ | ⟨-, -, -, rfl | rfl | rfl⟩ := serveConn_cases h
  . refine ⟨hc.1, ?_⟩
    rw [isDraining_iff.mpr hup]
    simp
  . exact absurd hdriven hc.2
  all_goals exact ⟨hc.1, by simp⟩

theorem deaf_of_run {es : List Event} {j : Nat} {c : Conn} (hup : Up g.signal) (hc : Deaf c)
    (h : Machine.run step g es = some g') (hj : g.conns[j]? = some c)
    : ∃ c', g'.conns[j]? = some c' ∧ Deaf c' := by
  have hall : Up g'.signal ∧ ∃ c', g'.conns[j]? = some c' ∧ Deaf c' := by
    apply Machine.inv_of_run_all (I := fun x => Up x.signal ∧ ∃ c', x.conns[j]? = some c' ∧ Deaf c') _ _ h
    . rintro x e y ⟨hupx, d, hd, hdeaf⟩ hstep
      refine ⟨up_of_step hstep hupx, ?_⟩
      obtain ⟨d', hd', heq⟩ := conn_of_step hstep hd
      refine ⟨d', hd', ?_⟩
      rcases heq with rfl | ⟨ce, hr⟩
      . exact hdeaf
      . exact deaf_of_serveConn hupx hdeaf hr
    . exact ⟨hup, c, hj, hc⟩
  exact hall.2

theorem drains_of_run {sockets : Nat} {es : List Event} {j : Nat} {c : Conn}
    (hrun : Machine.run step (init sockets) es = some g) (hj : g.conns[j]? = some c)
    : c.drains ≤ 1 ∧ (c.drains = 1 → Up g.signal)
        ∧ (c.status = .driven false → (Up g.signal ↔ (g.step (.conn j .changed)).isSome = true))
        ∧ ∀ es' g', Machine.run step g es' = some g' → ∃ c', g'.conns[j]? = some c'
            ∧ c.drains ≤ c'.drains ∧ (c.status = .opening → Up g.signal → c'.drains = 0) := by
  have hinv := inv_of_run (inv_init sockets) hrun
  have hok := hinv.conns c (List.mem_of_getElem? hj)
  refine ⟨hok.drains, fun h => hok.up (.inl h), ?_, ?_⟩
  . intro hdriven
    have hseen := (hok.waiting (.inr hdriven)).1
    have hstep : (g.step (.conn j .changed)).isSome = (g.signal.changed 0).isSome := by
      simp [step, hj, serveConn, hdriven, hseen]
    rw [hstep, Option.isSome_iff_ne_none]
    exact hinv.latched.changed_zero.symm
  . intro es' g' hrun'
    obtain ⟨c', hc', hle⟩ := drains_mono_run hrun' hj
    refine ⟨c', hc', hle, ?_⟩
    intro hopen hup
    have hdeaf : Deaf c := ⟨(hok.waiting (.inl hopen)).2, by simp [hopen]⟩
    obtain ⟨d, hd, hdeaf'⟩ := deaf_of_run hup hdeaf hrun' hj
    rw [hc'] at hd
    cases hd
    exact hdeaf'.1

theorem drains_of_run_two
    : (∃ c', ([{ seen := 1, status := .driven true, drains := 1 }, { seen := 0, status := .driven true }] :
        List Conn)[1]? = some c' ∧ c'.drains = 0) := by
  let es : List Event :=
    [.loop 0 (.boot true), .loop 0 .accept, .loop 0 .count, .conn 0 .drive, .loop 0 .accept, .loop 0 .count, .endpoint]
  have hrun : Machine.run step (init 1) es = some _ := rfl
  obtain ⟨-, -, -, hlater⟩ := drains_of_run hrun (j := 1) rfl
  obtain ⟨c', hc', -, hzero⟩ := hlater [.conn 0 .changed, .conn 1 .drive] _ rfl
  exact ⟨c', hc', hzero rfl (.inl rfl)⟩

def Own (e : Event) : Prop := ∃ i, e = .loop i (.boot true) ∨ e = .loop i .changed ∨ e = .loop i .count

theorem end_of_selecting {i : Nat} {l : AcceptLoop} (hinv : g.Inv) (hup : Up g.signal) (hi : g.loops[i]? = some l)
    (hstatus : l.status = .selecting)
    : ∃ seen, g.step (.loop i .changed)
        = some { g with loops := g.loops.set i { seen := seen, status := .ended true } } := by
  have hok := hinv.loops l (List.mem_of_getElem? hi)
  have hseen : l.seen = 0 := by
    apply hok.seen
    rintro ⟨ok, hended⟩
    rw [hstatus] at hended
    cases hended
  obtain ⟨ok, hchanged⟩ := changed_of_up hinv.latched hup
  have hserve : serveListener g.signal l .changed
      = some ({ seen := g.signal.version, status := .ended true }, none) := by
    simp only [serveListener, hstatus, hseen, hchanged, Option.map_some]
    rw [if_pos (closes_of_changed hinv.latched hchanged)]
  refine ⟨g.signal.version, ?_⟩
  simp [step, hi, hserve]

theorem end_of_loop {i : Nat} {l : AcceptLoop} (hinv : g.Inv) (hup : Up g.signal) (hi : g.loops[i]? = some l)
    : ∃ es g' l', (∀ e ∈ es, Own e) ∧ Machine.run step g es = some g' ∧ g'.loops = g.loops.set i l' ∧ l'.Ended
        ∧ g'.conns.length = g.conns.length + (if l.holding then 1 else 0)
        ∧ g'.signal = g.signal ∧ g'.phase = g.phase := by
  have hlt := (List.getElem?_eq_some_iff.mp hi).1
  cases hstatus : l.status with
  | ended ok =>
    refine ⟨[], g, l, by simp, rfl, ?_, ⟨ok, hstatus⟩, by simp [AcceptLoop.holding, hstatus], rfl, rfl⟩
    rw [← (List.getElem?_eq_some_iff.mp hi).2, List.set_getElem_self]
  | starting =>
    have hstep : g.step (.loop i (.boot true))
        = some { g with loops := g.loops.set i { l with status := .ended true } } := by
      simp [step, hi, serveListener, hstatus, isDraining_iff.mpr hup]
    refine ⟨[.loop i (.boot true)], _, _, ?_, Machine.run_of_step step hstep [], rfl, ⟨true, rfl⟩,
      by simp [AcceptLoop.holding, hstatus], rfl, rfl⟩
    simp [Own]
  | selecting =>
    obtain ⟨seen, hstep⟩ := end_of_selecting hinv hup hi hstatus
    refine ⟨[.loop i .changed], _, _, ?_, Machine.run_of_step step hstep [], rfl, ⟨true, rfl⟩,
      by simp [AcceptLoop.holding, hstatus], rfl, rfl⟩
    simp [Own]
  | accepted =>
    have hcount : g.step (.loop i .count)
        = some { g with
            loops := g.loops.set i { l with status := .selecting }
            conns := g.conns ++ [{ seen := l.seen }]
            inFlight := g.inFlight + 1 } := by
      simp [step, hi, serveListener, hstatus]
    have hinv' := inv_of_step hinv hcount
    obtain ⟨seen, hstep⟩ := end_of_selecting hinv' hup (List.getElem?_set_self hlt) rfl
    have hrun := (Machine.run_of_step step hcount [.loop i .changed]).trans (Machine.run_of_step step hstep [])
    refine ⟨[.loop i .count, .loop i .changed], _, { seen := seen, status := .ended true }, ?_, hrun, List.set_set ..,
      ⟨true, rfl⟩, by simp [AcceptLoop.holding, hstatus], rfl, rfl⟩
    simp [Own]

theorem end_of_loops (hinv : g.Inv) (hup : Up g.signal) (k : Nat)
    : ∃ es g', (∀ e ∈ es, Own e) ∧ Machine.run step g es = some g' ∧ (∀ l ∈ g'.loops.take k, l.Ended)
        ∧ g'.loops.drop k = g.loops.drop k ∧ g'.loops.length = g.loops.length
        ∧ g'.conns.length = g.conns.length + (g.loops.take k).countP AcceptLoop.holding
        ∧ g'.signal = g.signal ∧ g'.phase = g.phase := by
  induction k with
  | zero => exact ⟨[], g, by simp, rfl, by simp, rfl, rfl, by simp, rfl, rfl⟩
  | succ k ih =>
    obtain ⟨es, h, hown, hrun, hended, hdrop, hlen, hconns, hsignal, hphase⟩ := ih
    cases hk : g.loops[k]? with
    | none =>
      have hle := List.getElem?_eq_none_iff.mp hk
      refine ⟨es, h, hown, hrun, ?_, ?_, hlen, ?_, hsignal, hphase⟩
      . rw [List.take_of_length_le (by omega)] at hended ⊢
        exact hended
      . rw [List.drop_of_length_le (by omega), List.drop_of_length_le (by omega)]
      . rw [hconns, List.take_of_length_le hle, List.take_of_length_le (by omega)]
    | some l =>
      have hkh : h.loops[k]? = some l := by
        rw [← hk, ← Nat.add_zero k, ← List.getElem?_drop, ← List.getElem?_drop, hdrop]
      have hlt := (List.getElem?_eq_some_iff.mp hkh).1
      have hinvh := inv_of_run hinv hrun
      obtain ⟨fs, g', l', hown', hrun', hloops, hl', hconns', hsignal', hphase'⟩ :=
        end_of_loop hinvh (by rw [hsignal]; exact hup) hkh
      refine ⟨es ++ fs, g', ?_, by rw [Machine.run_append, hrun, Option.bind_some, hrun'], ?_, ?_, ?_, ?_,
        hsignal'.trans hsignal, hphase'.trans hphase⟩
      . intro e he
        rcases List.mem_append.mp he with he | he
        . exact hown e he
        . exact hown' e he
      . rw [hloops, List.take_add_one, List.take_set_of_le (Nat.le_refl k), List.getElem?_set_self hlt]
        intro m hm
        rcases List.mem_append.mp hm with hm | hm
        . exact hended m hm
        . cases Option.mem_toList.mp hm
          exact hl'
      . rw [hloops, List.drop_set_of_lt (Nat.lt_succ_self k), ← List.tail_drop, ← List.tail_drop, hdrop]
      . rw [hloops, List.length_set, hlen]
      . rw [hconns', hconns, List.take_add_one, hk, List.countP_append]
        by_cases hl : l.holding = true
        . simp [hl, Nat.add_assoc]
        . simp [hl]

theorem fast_of_settled {atSignal next taskErrors : Nat} (hphase : g.phase = .settling true atSignal next taskErrors)
    (hnext : g.loops[next]? = none)
    : ∃ g' r, Machine.run step g [.run .settle, .run .summary] = some g' ∧ g'.phase = .reported true r := by
  have hsettle : g.step (.run .settle) = some { g with phase := .waited true atSignal false taskErrors } := by
    simp [step, runStep, hphase, hnext]
  refine ⟨{ g with phase := .reported true (summary true atSignal g.inFlight false taskErrors) }, _, ?_, rfl⟩
  rw [Machine.run_of_step step hsettle]
  exact Machine.run_of_step step rfl []

theorem fast_of_ended {atSignal : Nat} (n next taskErrors : Nat) (hended : ∀ l ∈ g.loops, l.Ended)
    (hphase : g.phase = .settling true atSignal next taskErrors) (hn : g.loops.length ≤ next + n)
    : ∃ es g' r, (∀ e ∈ es, e = .run .settle ∨ e = .run .summary) ∧ Machine.run step g es = some g'
        ∧ g'.phase = .reported true r := by
  induction n generalizing g next taskErrors with
  | zero =>
    obtain ⟨g', r, hrun, hr⟩ := fast_of_settled hphase (List.getElem?_eq_none_iff.mpr (by omega))
    exact ⟨_, g', r, by simp, hrun, hr⟩
  | succ n ih =>
    cases hl : g.loops[next]? with
    | none =>
      obtain ⟨g', r, hrun, hr⟩ := fast_of_settled hphase hl
      exact ⟨_, g', r, by simp, hrun, hr⟩
    | some l =>
      obtain ⟨ok, hok⟩ := hended l (List.mem_of_getElem? hl)
      have hsettle : g.step (.run .settle) = some { g with
          phase := .settling true atSignal (next + 1) (if ok then taskErrors else taskErrors + 1) } := by
        simp [step, runStep, hphase, hl, settle, hok]
      obtain ⟨es, g', r, hes, hrun, hr⟩ := ih (g := { g with
        phase := .settling true atSignal (next + 1) (if ok then taskErrors else taskErrors + 1) })
        (next + 1) _ hended rfl (by dsimp only; omega)
      refine ⟨.run .settle :: es, g', r, ?_, ?_, hr⟩
      . intro e he
        rcases List.mem_cons.mp he with rfl | he
        . exact .inl rfl
        . exact hes e he
      . rw [Machine.run_of_step step hsettle]
        exact hrun

theorem signal_not_missed {sockets : Nat} {es : List Event} (hrun : Machine.run step (init sockets) es = some g)
    : ((∃ l ∈ g.loops, l.status = .ended true) → g.draining = true)
        ∧ (g.draining = true →
          (∀ es' g', Machine.run step g es' = some g' → g'.draining = true)
            ∧ (∃ es' g', (∀ e ∈ es', Own e) ∧ Machine.run step g es' = some g' ∧ (∀ l ∈ g'.loops, l.Ended)
              ∧ g'.conns.length = g.conns.length + g.loops.countP AcceptLoop.holding)
            ∧ ∀ atSignal next taskErrors, g.phase = .settling true atSignal next taskErrors →
              ∃ es' g' r, (∀ e ∈ es', Own e ∨ e = .run .settle ∨ e = .run .summary)
                ∧ Machine.run step g es' = some g' ∧ g'.phase = .reported true r) := by
  have hinv := inv_of_run (inv_init sockets) hrun
  constructor
  . rintro ⟨l, hl, hended⟩
    exact isDraining_iff.mpr ((hinv.loops l hl).up hended)
  . intro hdraining
    have hup : Up g.signal := isDraining_iff.mp hdraining
    obtain ⟨es', g', hown, hrun', hended, -, hlen, hconns, -, hphase'⟩ := end_of_loops hinv hup g.loops.length
    rw [← hlen, List.take_length] at hended
    rw [List.take_length] at hconns
    refine ⟨fun _ _ h => isDraining_iff.mpr (up_of_run h hup), ⟨es', g', hown, hrun', hended, hconns⟩, ?_⟩
    intro atSignal next taskErrors hphase
    obtain ⟨fs, h, r, hfs, hrun'', hr⟩ := fast_of_ended g'.loops.length next taskErrors hended (hphase'.trans hphase)
      (by omega)
    refine ⟨es' ++ fs, h, r, ?_, by rw [Machine.run_append, hrun', Option.bind_some, hrun''], hr⟩
    intro e he
    rcases List.mem_append.mp he with he | he
    . exact .inl (hown e he)
    . exact .inr (hfs e he)

theorem signal_not_missed_two
    : ∃ es' g', (∀ e ∈ es', Own e) ∧ Machine.run step
          { signal := WatchCell.send { value := false } true
            loops := [{ seen := 0, status := .accepted }, { seen := 0 }] } es' = some g'
        ∧ (∀ l ∈ g'.loops, l.Ended) ∧ g'.conns.length = 1 := by
  let es : List Event := [.loop 0 (.boot true), .loop 0 .accept, .endpoint]
  have hrun : Machine.run step (init 2) es = some _ := rfl
  exact ((signal_not_missed hrun).2 rfl).2.1

end Gateway

end Shutdown

end OpenRusty
