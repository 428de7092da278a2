import Mathlib.Data.List.TakeDrop
import OpenRusty.Lib.Pool
import OpenRusty.Server.Shutdown.Basic

/-!
This module contains the theory of the shutdown: what one step of each party does, and the invariant that
all of them keep. As nothing but `true` is ever sent, a receiver that is still waiting has seen nothing.
-/

namespace OpenRusty

namespace Shutdown

def Up (w : WatchCell Bool) : Prop := w.value = true ∨ w.closed = true

theorem isDraining_iff {w : WatchCell Bool} {seen : Nat} : isDraining w seen = true ↔ Up w := by
  rw [isDraining, Bool.or_eq_true, Option.isNone_iff_eq_none, WatchCell.hasChanged_eq_none, Up]

theorem Up.send {w : WatchCell Bool} : Up (w.send true) := .inl rfl

theorem changed_of_up {w : WatchCell Bool} (hw : w.Latched) (h : Up w)
    : ∃ ok, w.changed 0 = some (ok, w.version) := by
  have hne := hw.changed_zero.mpr h
  obtain ⟨⟨ok, seen⟩, hr⟩ := Option.ne_none_iff_exists'.mp hne
  refine ⟨ok, ?_⟩
  rw [hr, (WatchCell.changed_eq_some hr).1]

theorem up_of_changed {w : WatchCell Bool} (hw : w.Latched) {r : Bool × Nat} (h : w.changed 0 = some r) : Up w := by
  apply hw.changed_zero.mp
  simp [h]

theorem closes_of_changed {w : WatchCell Bool} (hw : w.Latched) {ok : Bool} {seen : Nat}
    (h : w.changed 0 = some (ok, seen))
    : (!ok || w.value) = true := by
  rcases (WatchCell.changed_eq_some h).2 with ⟨rfl, hne⟩ | ⟨rfl, -⟩
  . have hvalue : w.value = true := by
      rw [show w.value = true ↔ 0 < w.version from hw]
      omega
    simp [hvalue]
  . rfl

def AcceptLoop.Ended (l : AcceptLoop) : Prop := ∃ ok, l.status = .ended ok

structure AcceptLoop.Ok (w : WatchCell Bool) (l : AcceptLoop) : Prop where
  seen : ¬l.Ended → l.seen = 0
  up : l.status = .ended true → Up w

structure Conn.Ok (w : WatchCell Bool) (c : Conn) : Prop where
  waiting : c.status = .opening ∨ c.status = .driven false → c.seen = 0 ∧ c.drains = 0
  drains : c.drains ≤ 1
  up : c.drains = 1 ∨ c.status = .driven true → Up w

theorem AcceptLoop.Ok.mono {w w' : WatchCell Bool} {l : AcceptLoop} (h : l.Ok w) (hup : Up w → Up w') : l.Ok w' where
  seen := h.seen
  up hl := hup (h.up hl)

theorem Conn.Ok.mono {w w' : WatchCell Bool} {c : Conn} (h : c.Ok w) (hup : Up w → Up w') : c.Ok w' where
  waiting := h.waiting
  drains := h.drains
  up hc := hup (h.up hc)

theorem serveListener_cases {w : WatchCell Bool} (hw : w.Latched) {l l' : AcceptLoop} {e : LoopEvent}
    {c : Option Conn} (hl : l.Ok w) (h : serveListener w l e = some (l', c))
    : ¬l.Ended ∧
        (c = none ∧ l'.Ended ∧ (l'.status = .ended true → Up w)
          ∨ c = none ∧ l'.seen = l.seen ∧ (l'.status = .selecting ∨ l'.status = .accepted)
          ∨ c = some { seen := 0 } ∧ l.status = .accepted ∧ l' = { l with status := .selecting }) := by
  have hne : ¬l.Ended := by
    rintro ⟨ok, hok⟩
    simp [serveListener, hok] at h
  have hseen := hl.seen hne
  refine ⟨hne, ?_⟩
  unfold serveListener at h
  split at h
  . split at h
    . cases h
      exact .inl ⟨rfl, ⟨_, rfl⟩, fun h => by cases h⟩
    . split at h
      . next hdraining =>
        cases h
        exact .inl ⟨rfl, ⟨_, rfl⟩, fun _ => isDraining_iff.mp hdraining⟩
      . cases h
        exact .inr (.inl ⟨rfl, rfl, .inl rfl⟩)
  . rw [hseen] at h
    obtain ⟨r, hr, heq⟩ := Option.map_eq_some_iff.mp h
    rw [if_pos (closes_of_changed hw hr)] at heq
    cases heq
    exact .inl ⟨rfl, ⟨_, rfl⟩, fun _ => up_of_changed hw hr⟩
  . cases h
    exact .inr (.inl ⟨rfl, rfl, .inr rfl⟩)
  . next hstatus =>
    cases h
    exact .inr (.inl ⟨rfl, rfl, .inl hstatus⟩)
  . next hstatus =>
    cases h
    rw [hseen]
    refine .inr (.inr ⟨rfl, hstatus, ?_⟩)
    rfl
  . cases h
  . cases h
    exact .inl ⟨rfl, ⟨_, rfl⟩, fun h => by cases h⟩
  . cases h

theorem serveListener_ok {w : WatchCell Bool} (hw : w.Latched) {l l' : AcceptLoop} {e : LoopEvent}
    {c : Option Conn} (hl : l.Ok w) (h : serveListener w l e = some (l', c))
    : l'.Ok w ∧ ∀ d ∈ c, d.Ok w := by
  obtain ⟨hne, ⟨rfl, hended, hup⟩ | ⟨rfl, hseen, hstatus⟩ | ⟨rfl, -, rfl⟩⟩ := serveListener_cases hw hl h
  . refine ⟨⟨fun h => absurd hended h, hup⟩, ?_⟩
    intro d hd
    cases hd
  . refine ⟨⟨fun _ => by rw [hseen, hl.seen hne], ?_⟩, ?_⟩
    . intro hok
      rw [hok] at hstatus
      rcases hstatus with h | h <;> cases h
    . intro d hd
      cases hd
  . refine ⟨⟨fun _ => hl.seen hne, fun h => by cases h⟩, ?_⟩
    intro d hd
    cases hd
    exact ⟨fun _ => ⟨rfl, rfl⟩, Nat.zero_le 1, by simp⟩

theorem serveConn_cases {w : WatchCell Bool} {c c' : Conn} {e : ConnEvent} (h : serveConn w c e = some c')
    : c.status = .opening ∧ e = .drive ∧ c' = { c with status := .driven (isDraining w c.seen) }
        ∨ c.status = .driven false ∧ e = .changed
            ∧ (∃ r, w.changed c.seen = some r
              ∧ c' = { seen := r.2, status := .driven true, drains := c.drains + 1 })
        ∨ c.status = .served ∧ e = .release ∧ c' = { c with status := .released }
        ∨ c.status ≠ .served ∧ c.status ≠ .released ∧ e ≠ .release
            ∧ (c' = { c with status := .tunneled } ∨ c' = { c with status := .served }
              ∨ c' = { c with status := .lost }) := by
  unfold serveConn at h
  split at h
  . next hstatus =>
    cases h
    exact .inl ⟨hstatus, rfl, rfl⟩
  . next hstatus =>
    cases h
    simp [hstatus]
  . next hstatus =>
    obtain ⟨r, hr, heq⟩ := Option.map_eq_some_iff.mp h
    exact .inr (.inl ⟨hstatus, rfl, r, hr, heq.symm⟩)
  . next hstatus =>
    cases h
    simp [hstatus]
  . next hstatus =>
    cases h
    simp [hstatus]
  . next hstatus =>
    cases h
    simp [hstatus]
  . next hstatus =>
    cases h
    exact .inr (.inr (.inl ⟨hstatus, rfl, rfl⟩))
  . next hstatus =>
    cases h
    simp [hstatus]
  . next hstatus =>
    cases h
    simp [hstatus]
  . next hstatus =>
    cases h
    simp [hstatus]
  . cases h

theorem serveConn_ok {w : WatchCell Bool} (hw : w.Latched) {c c' : Conn} {e : ConnEvent} (hc : c.Ok w)
    (h : serveConn w c e = some c')
    : c'.Ok w := by
  obtain ⟨hopen, -, rfl⟩ | ⟨hdriven, -, r, hr, rfl⟩ | ⟨-, -, rfl⟩ | ⟨-, -, -, hrest⟩ := serveConn_cases h
  . have hwait := hc.waiting (.inl hopen)
    refine ⟨fun _ => hwait, hc.drains, ?_⟩
    rintro (hdrains | hshutting)
    . exact hc.up (.inl hdrains)
    . have : isDraining w c.seen = true := by simpa using hshutting
      exact isDraining_iff.mp this
  . obtain ⟨hseen, hdrains⟩ := hc.waiting (.inr hdriven)
    rw [hseen] at hr
    refine ⟨by simp, by simp [hdrains], fun _ => up_of_changed hw hr⟩
  . exact ⟨by simp, hc.drains, fun h => hc.up (h.imp_right (by simp))⟩
  . rcases hrest with rfl | rfl | rfl
    all_goals exact ⟨by simp, hc.drains, fun h => hc.up (h.imp_right (by simp))⟩

def Conn.counted (c : Conn) : Bool := decide (c.status ≠ .released)

def Conn.isReleased (c : Conn) : Bool := decide (c.status = .released)

def AcceptLoop.failed (l : AcceptLoop) : Bool := decide (l.status = .ended false)

def AcceptLoop.holding (l : AcceptLoop) : Bool := decide (l.status = .accepted)

def Settled (loops : List AcceptLoop) (next taskErrors : Nat) : Prop :=
  (∀ l ∈ loops.take next, l.Ended) ∧ taskErrors = (loops.take next).countP AcceptLoop.failed

namespace Gateway

def Quiet (g : Gateway) : Prop := (∀ l ∈ g.loops, l.Ended) ∧ ∀ c ∈ g.conns, c.status = .released

def Waited (g : Gateway) (fast timedOut : Bool) (taskErrors : Nat) : Prop :=
  ∃ next, Settled g.loops next taskErrors
    ∧ (timedOut = false → g.loops.length ≤ next ∧ (fast = false → ∀ c ∈ g.conns, c.status = .released))

def PhaseOk (g : Gateway) : Prop :=
  match g.phase with
  | .serving | .loaded _ _ => True
  | .settling _ _ next taskErrors => g.signal.value = true ∧ Settled g.loops next taskErrors
  | .polling _ taskErrors => g.signal.value = true ∧ Settled g.loops g.loops.length taskErrors
  | .waited fast _ timedOut taskErrors => g.signal.value = true ∧ g.Waited fast timedOut taskErrors
  | .reported fast r =>
    g.signal.value = true ∧ g.Waited fast r.timedOut r.taskErrors ∧ (fast = false → r.timedOut = false → r.forced = 0)

structure Inv (g : Gateway) : Prop where
  latched : g.signal.Latched
  loops : ∀ l ∈ g.loops, l.Ok g.signal
  conns : ∀ c ∈ g.conns, c.Ok g.signal
  inFlight : g.inFlight = g.conns.countP Conn.counted
  phase : g.PhaseOk

theorem step_cases {g g' : Gateway} {e : Event} (h : g.step e = some g')
    : (∃ i le l l' c, e = .loop i le ∧ g.loops[i]? = some l ∧ serveListener g.signal l le = some (l', c)
        ∧ g' = { g with
            loops := g.loops.set i l'
            conns := g.conns ++ c.toList
            inFlight := g.inFlight + c.toList.length })
      ∨ (∃ j ce c c', e = .conn j ce ∧ g.conns[j]? = some c ∧ serveConn g.signal c ce = some c'
        ∧ g' = { g with
            conns := g.conns.set j c'
            inFlight := if ce = .release then g.inFlight - 1 else g.inFlight })
      ∨ (∃ re, e = .run re ∧ g.runStep re = some g')
      ∨ g.signal.closed = false ∧ g' = { g with signal := g.signal.send true }
      ∨ g.phase = .serving ∧ g' = { g with signal := g.signal.close } := by
  cases e with
  | loop i le =>
    left
    simp only [step, Option.bind_eq_some_iff, Option.map_eq_some_iff] at h
    obtain ⟨l, hl, ⟨l', c⟩, hr, rfl⟩ := h
    exact ⟨i, le, l, l', c, rfl, hl, hr, rfl⟩
  | conn j ce =>
    right; left
    simp only [step, Option.bind_eq_some_iff, Option.map_eq_some_iff] at h
    obtain ⟨c, hc, c', hr, rfl⟩ := h
    exact ⟨j, ce, c, c', rfl, hc, hr, rfl⟩
  | run re => exact .inr (.inr (.inl ⟨re, rfl, h⟩))
  | endpoint =>
    simp only [step] at h
    split at h
    . cases h
    . next hclosed =>
      cases h
      exact .inr (.inr (.inr (.inl ⟨by simpa using hclosed, rfl⟩)))
  | dropSender =>
    simp only [step] at h
    split at h
    . next hphase =>
      cases h
      exact .inr (.inr (.inr (.inr ⟨hphase, rfl⟩)))
    . cases h

theorem runStep_frame {g g' : Gateway} {e : RunEvent} (h : g.runStep e = some g')
    : g'.loops = g.loops ∧ g'.conns = g.conns ∧ g'.inFlight = g.inFlight
        ∧ (g'.signal = g.signal ∨ g'.signal = g.signal.send true) := by
  unfold runStep at h
  split at h
  . split at h
    . cases h
    . cases h
      exact ⟨rfl, rfl, rfl, .inl rfl⟩
  . cases h
    exact ⟨rfl, rfl, rfl, .inr rfl⟩
  . split at h
    . obtain ⟨ok, -, rfl⟩ := Option.map_eq_some_iff.mp h
      exact ⟨rfl, rfl, rfl, .inl rfl⟩
    . split at h <;> cases h <;> exact ⟨rfl, rfl, rfl, .inl rfl⟩
  . split at h <;> cases h <;> exact ⟨rfl, rfl, rfl, .inl rfl⟩
  . cases h
    exact ⟨rfl, rfl, rfl, .inl rfl⟩
  . cases h
    exact ⟨rfl, rfl, rfl, .inl rfl⟩
  . cases h
    exact ⟨rfl, rfl, rfl, .inl rfl⟩
  . cases h

theorem signal_of_step {g g' : Gateway} {e : Event} (h : g.step e = some g')
    : g'.signal = g.signal ∨ g'.signal = g.signal.send true ∨ g'.signal = g.signal.close := by
  obtain ⟨_, _, _, _, _, -, -, -, rfl⟩ | ⟨_, _, _, _, -, -, -, rfl⟩ | ⟨re, -, hre⟩ | ⟨-, rfl⟩ | ⟨-, rfl⟩ :=
    step_cases h
  . exact .inl rfl
  . exact .inl rfl
  . exact (runStep_frame hre).2.2.2.imp_right .inl
  . exact .inr (.inl rfl)
  . exact .inr (.inr rfl)

theorem up_of_step {g g' : Gateway} {e : Event} (h : g.step e = some g') (hup : Up g.signal) : Up g'.signal := by
  rcases signal_of_step h with hsig | hsig | hsig
  . rwa [hsig]
  . rw [hsig]
    exact .send
  . rw [hsig]
    exact .inr rfl

theorem up_of_run {g g' : Gateway} {es : List Event} (h : Machine.run step g es = some g') (hup : Up g.signal)
    : Up g'.signal :=
  Machine.inv_of_run_all (I := fun g => Up g.signal) (fun _ _ _ hup h => up_of_step h hup) hup h

end Gateway

section settled

variable {loops : List AcceptLoop} {next taskErrors : Nat}

theorem Settled.zero : Settled loops 0 0 := by
  simp [Settled]

theorem Settled.succ (h : Settled loops next taskErrors) {l : AcceptLoop} (hl : loops[next]? = some l) {ok : Bool}
    (hok : l.status = .ended ok)
    : Settled loops (next + 1) (if ok then taskErrors else taskErrors + 1) := by
  unfold Settled
  rw [List.take_add_one, hl]
  constructor
  . intro l' hl'
    rcases List.mem_append.mp hl' with hmem | hmem
    . exact h.1 l' hmem
    . cases (Option.mem_toList.mp hmem)
      exact ⟨ok, hok⟩
  . rw [List.countP_append, ← h.2]
    cases ok <;> simp [AcceptLoop.failed, hok]

theorem Settled.all (h : Settled loops next taskErrors) (hnext : loops.length ≤ next)
    : Settled loops loops.length taskErrors := by
  unfold Settled at h ⊢
  rwa [List.take_of_length_le hnext, ← List.take_length (l := loops)] at h

theorem Settled.set (h : Settled loops next taskErrors) {i : Nat} {l l' : AcceptLoop} (hi : loops[i]? = some l)
    (hl : ¬l.Ended)
    : Settled (loops.set i l') next taskErrors := by
  have hle : next ≤ i := by
    by_contra hlt
    apply hl
    apply h.1
    rw [List.mem_iff_getElem?]
    exact ⟨i, by rw [List.getElem?_take_of_lt (by omega), hi]⟩
  unfold Settled
  rw [List.take_set_of_le hle]
  exact h

end settled

theorem countP_set_add {α : Type} {p : α → Bool} {l : List α} {i : Nat} {a b : α} (h : l[i]? = some a)
    : (l.set i b).countP p + (if p a then 1 else 0) = l.countP p + (if p b then 1 else 0) := by
  have hlt := (List.getElem?_eq_some_iff.mp h).1
  have heq := (List.getElem?_eq_some_iff.mp h).2
  rw [List.countP_set hlt, heq]
  have hpos : (if p a then 1 else 0) ≤ l.countP p := by
    split
    . next hp =>
      apply List.countP_pos_iff.mpr
      exact ⟨a, List.mem_of_getElem? h, hp⟩
    . exact Nat.zero_le _
  omega

namespace Gateway

variable {g g' : Gateway}

theorem inFlight_release {j : Nat} {c c' : Conn} {e : ConnEvent} (hinv : g.inFlight = g.conns.countP Conn.counted)
    (hc : g.conns[j]? = some c) (h : serveConn g.signal c e = some c')
    : (if e = .release then g.inFlight - 1 else g.inFlight) = (g.conns.set j c').countP Conn.counted := by
  have hset := countP_set_add (p := Conn.counted) (b := c') hc
  rw [← hinv] at hset
  obtain ⟨hopen, rfl, rfl⟩ | ⟨hdriven, rfl, r, -, rfl⟩ | ⟨hserved, rfl, rfl⟩ | ⟨-, hne, hrel, hrest⟩ :=
    serveConn_cases h
  . rw [if_neg (by simp)]
    simp [Conn.counted, hopen] at hset
    exact hset.symm
  . rw [if_neg (by simp)]
    simp [Conn.counted, hdriven] at hset
    exact hset.symm
  . rw [if_pos rfl]
    simp [Conn.counted, hserved] at hset
    omega
  . rw [if_neg hrel]
    have hcounted : c.counted = true := by simpa [Conn.counted] using hne
    rcases hrest with rfl | rfl | rfl
    all_goals
      simp [Conn.counted] at hset hcounted
      simp [hcounted] at hset
      exact hset.symm

theorem Waited.loop {fast timedOut : Bool} {taskErrors i : Nat} {l l' : AcceptLoop} (conns : List Conn)
    (inFlight : Nat) (h : g.Waited fast timedOut taskErrors) (hi : g.loops[i]? = some l) (hl : ¬l.Ended)
    : Waited { g with loops := g.loops.set i l', conns := conns, inFlight := inFlight } fast timedOut taskErrors := by
  obtain ⟨next, hsettled, hall⟩ := h
  refine ⟨next, hsettled.set hi hl, ?_⟩
  intro htime
  exfalso
  apply hl
  apply hsettled.1
  rw [List.take_of_length_le (hall htime).1]
  exact List.mem_of_getElem? hi

theorem Waited.conn {fast timedOut : Bool} {taskErrors j : Nat} {c c' : Conn} {e : ConnEvent} (inFlight : Nat)
    (h : g.Waited fast timedOut taskErrors) (hj : g.conns[j]? = some c) (hc : serveConn g.signal c e = some c')
    : Waited { g with conns := g.conns.set j c', inFlight := inFlight } fast timedOut taskErrors := by
  obtain ⟨next, hsettled, hall⟩ := h
  refine ⟨next, hsettled, ?_⟩
  intro htime
  refine ⟨(hall htime).1, ?_⟩
  intro hfast
  have hrel := (hall htime).2 hfast c (List.mem_of_getElem? hj)
  simp [serveConn, hrel] at hc

theorem PhaseOk.loop {i : Nat} {l l' : AcceptLoop} {conns : List Conn} {inFlight : Nat} (h : g.PhaseOk)
    (hi : g.loops[i]? = some l) (hl : ¬l.Ended)
    : PhaseOk { g with loops := g.loops.set i l', conns := conns, inFlight := inFlight } := by
  unfold PhaseOk at h ⊢
  dsimp only
  cases hphase : g.phase with
  | serving => trivial
  | loaded => trivial
  | settling fast atSignal next taskErrors =>
    rw [hphase] at h
    exact ⟨h.1, h.2.set hi hl⟩
  | polling atSignal taskErrors =>
    rw [hphase] at h
    simp only [List.length_set]
    exact ⟨h.1, h.2.set hi hl⟩
  | waited fast atSignal timedOut taskErrors =>
    rw [hphase] at h
    exact ⟨h.1, h.2.loop conns inFlight hi hl⟩
  | reported fast r =>
    rw [hphase] at h
    exact ⟨h.1, h.2.1.loop conns inFlight hi hl, h.2.2⟩

theorem PhaseOk.conn {j : Nat} {c c' : Conn} {e : ConnEvent} {inFlight : Nat} (h : g.PhaseOk)
    (hj : g.conns[j]? = some c) (hc : serveConn g.signal c e = some c')
    : PhaseOk { g with conns := g.conns.set j c', inFlight := inFlight } := by
  unfold PhaseOk at h ⊢
  dsimp only
  cases hphase : g.phase with
  | serving => trivial
  | loaded => trivial
  | settling fast atSignal next taskErrors =>
    rw [hphase] at h
    exact h
  | polling atSignal taskErrors =>
    rw [hphase] at h
    exact h
  | waited fast atSignal timedOut taskErrors =>
    rw [hphase] at h
    exact ⟨h.1, h.2.conn inFlight hj hc⟩
  | reported fast r =>
    rw [hphase] at h
    exact ⟨h.1, h.2.1.conn inFlight hj hc, h.2.2⟩

theorem PhaseOk.endpoint (h : g.PhaseOk) : PhaseOk { g with signal := g.signal.send true } := by
  unfold PhaseOk at h ⊢
  dsimp only
  cases hphase : g.phase with
  | serving => trivial
  | loaded => trivial
  | settling fast atSignal next taskErrors =>
    rw [hphase] at h
    exact ⟨rfl, h.2⟩
  | polling atSignal taskErrors =>
    rw [hphase] at h
    exact ⟨rfl, h.2⟩
  | waited fast atSignal timedOut taskErrors =>
    rw [hphase] at h
    exact ⟨rfl, h.2⟩
  | reported fast r =>
    rw [hphase] at h
    exact ⟨rfl, h.2⟩

theorem released_of_inFlight (h : g.inFlight = g.conns.countP Conn.counted) (hzero : g.inFlight = 0)
    : ∀ c ∈ g.conns, c.status = .released := by
  intro c hc
  rw [h, List.countP_eq_zero] at hzero
  simpa [Conn.counted] using hzero c hc

theorem inFlight_of_released (h : g.inFlight = g.conns.countP Conn.counted) (hrel : ∀ c ∈ g.conns, c.status = .released)
    : g.inFlight = 0 := by
  rw [h, List.countP_eq_zero]
  intro c hc
  simp [Conn.counted, hrel c hc]

theorem phaseOk_of_runStep {e : RunEvent} (hinv : g.Inv) (h : g.runStep e = some g') : g'.PhaseOk := by
  have hok := hinv.phase
  unfold runStep at h
  unfold PhaseOk at hok
  split at h
  . split at h
    . cases h
    . cases h
      trivial
  . cases h
    exact ⟨rfl, .zero⟩
  . next hphase =>
    rw [hphase] at hok
    split at h
    . next hl =>
      obtain ⟨ok, hok', rfl⟩ := Option.map_eq_some_iff.mp h
      refine ⟨hok.1, hok.2.succ hl ?_⟩
      unfold settle at hok'
      split at hok'
      . cases hok'
        assumption
      . cases hok'
    . next hnext =>
      have hle := List.getElem?_eq_none_iff.mp hnext
      split at h
      . cases h
        exact ⟨hok.1, _, hok.2, fun _ => ⟨hle, fun h => by cases h⟩⟩
      . cases h
        exact ⟨hok.1, hok.2.all hle⟩
  . next hphase =>
    rw [hphase] at hok
    split at h
    . cases h
      unfold PhaseOk
      rw [hphase]
      exact hok
    . next hzero =>
      cases h
      refine ⟨hok.1, _, hok.2, fun _ => ⟨Nat.le_refl _, fun _ => ?_⟩⟩
      exact released_of_inFlight hinv.inFlight (Nat.eq_zero_of_not_pos hzero)
  . next hphase =>
    rw [hphase] at hok
    cases h
    exact ⟨hok.1, _, hok.2, fun h => by cases h⟩
  . next hphase =>
    rw [hphase] at hok
    cases h
    exact ⟨hok.1, _, hok.2, fun h => by cases h⟩
  . next hphase =>
    rw [hphase] at hok
    cases h
    refine ⟨hok.1, hok.2, ?_⟩
    intro hfast htime
    obtain ⟨next, -, hall⟩ := hok.2
    have hzero := inFlight_of_released hinv.inFlight ((hall htime).2 hfast)
    simp [summary, hzero]
  . cases h

theorem inv_init (sockets : Nat) : Inv (init sockets) where
  latched := WatchCell.latched_init
  loops l hl := by
    cases List.eq_of_mem_replicate hl
    exact ⟨fun _ => rfl, fun h => by cases h⟩
  conns c hc := by cases hc
  inFlight := rfl
  phase := trivial

theorem inv_of_step {e : Event} (hinv : g.Inv) (h : g.step e = some g') : g'.Inv := by
  have hup : Up g.signal → Up g'.signal := up_of_step h
  have hlatched : g'.signal.Latched := by
    rcases signal_of_step h with hsig | hsig | hsig
    . rw [hsig]
      exact hinv.latched
    . rw [hsig]
      exact hinv.latched.send
    . rw [hsig]
      exact hinv.latched.close
  obtain ⟨i, le, l, l', c, -, hl, hr, rfl⟩ | ⟨j, ce, c, c', -, hc, hr, rfl⟩ | ⟨re, -, hre⟩ | ⟨-, rfl⟩ | ⟨hphase, rfl⟩ :=
    step_cases h
  . have hlok := hinv.loops l (List.mem_of_getElem? hl)
    have hl'ok := serveListener_ok hinv.latched hlok hr
    have hne := (serveListener_cases hinv.latched hlok hr).1
    refine ⟨hlatched, ?_, ?_, ?_, hinv.phase.loop hl hne⟩
    . intro m hm
      rcases List.mem_or_eq_of_mem_set hm with hold | rfl
      . exact hinv.loops m hold
      . exact hl'ok.1
    . intro d hd
      rcases List.mem_append.mp hd with hold | hnew
      . exact hinv.conns d hold
      . exact hl'ok.2 d (Option.mem_toList.mp hnew)
    . dsimp only
      rw [List.countP_append, ← hinv.inFlight]
      congr 1
      rcases (serveListener_cases hinv.latched hlok hr).2 with ⟨rfl, -⟩ | ⟨rfl, -⟩ | ⟨rfl, -⟩ <;> rfl
  . have hcok := hinv.conns c (List.mem_of_getElem? hc)
    refine ⟨hlatched, hinv.loops, ?_, inFlight_release hinv.inFlight hc hr, hinv.phase.conn hc hr⟩
    intro d hd
    rcases List.mem_or_eq_of_mem_set hd with hold | rfl
    . exact hinv.conns d hold
    . exact serveConn_ok hinv.latched hcok hr
  . obtain ⟨hloops, hconns, hcount, -⟩ := runStep_frame hre
    refine ⟨hlatched, ?_, ?_, ?_, phaseOk_of_runStep hinv hre⟩
    . rw [hloops]
      exact fun l hl => (hinv.loops l hl).mono hup
    . rw [hconns]
      exact fun c hc => (hinv.conns c hc).mono hup
    . rw [hcount, hconns]
      exact hinv.inFlight
  . exact ⟨hlatched, fun l hl => (hinv.loops l hl).mono hup, fun c hc => (hinv.conns c hc).mono hup, hinv.inFlight,
      hinv.phase.endpoint⟩
  . refine ⟨hlatched, fun l hl => (hinv.loops l hl).mono hup, fun c hc => (hinv.conns c hc).mono hup, hinv.inFlight, ?_⟩
    unfold PhaseOk
    dsimp only
    rw [hphase]
    trivial

theorem inv_of_run {es : List Event} (hinv : g.Inv) (h : Machine.run step g es = some g') : g'.Inv :=
  Machine.inv_of_run_all (fun _ _ _ hinv h => inv_of_step hinv h) hinv h

end Gateway

end Shutdown

end OpenRusty
