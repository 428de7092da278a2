import OpenRusty.Lib.Pool
import OpenRusty.Server.State

/-!
This module contains the tasks that probe the peers (`active_probe.rs`). A reload swaps the runtime and then
cancels the task and spawns another one; a cancelled task goes on until it waits the next time. An event is
a part of a poll of one of the tasks, or a step of a reload.
-/

namespace OpenRusty

namespace ActiveProbe

structure Job where
  upstream : String
  idx : Nat
  addr : SocketAddr
  unhealthyThreshold : Nat
  healthyThreshold : Nat
  deriving DecidableEq, Repr

abbrev Key := String × SocketAddr

def Job.key (job : Job) : Key := (job.upstream, job.addr)

def jobsOf (up : Upstream) : List Job :=
  match up.health.active with
  | none => []
  | some active =>
    up.peers.mapIdx fun idx peer => {
      upstream := up.name
      idx := idx
      addr := peer.addr
      unhealthyThreshold := active.unhealthyThreshold
      healthyThreshold := active.healthyThreshold
    }

def upstreamsOf (rt : RuntimeSnapshot) : List Upstream := rt.upstreams.entries.map fun e => e.2.up

def jobs (rt : RuntimeSnapshot) : List Job := (upstreamsOf rt).flatMap jobsOf

def intervals (rt : RuntimeSnapshot) : List Nat :=
  (upstreamsOf rt).filterMap fun up => up.health.active.map ActiveHealthConfig.intervalMs

def smallestInterval (rt : RuntimeSnapshot) : Option Nat := (intervals rt).min?

structure Sweep where
  jobs : List Job
  results : List (Option Bool)
  deriving DecidableEq

def Sweep.start (rt : RuntimeSnapshot) : Sweep where
  jobs := ActiveProbe.jobs rt
  results := (ActiveProbe.jobs rt).map fun _ => none

def Sweep.verdicts (sweep : Sweep) : List (Key × Option Bool) :=
  sweep.jobs.zipWith (fun job r => (job.key, r)) sweep.results

structure ProbeTask where
  interval : Nat
  aborted : Bool := false
  polled : Bool := false
  sweep : Option Sweep := none
  prev : AList fun _ : Key => Bool := ∅
  -- the lines that it has written, and the verdicts of its finished sweeps
  lines : List (Key × Bool) := []
  seen : List (Key × Bool) := []
  deriving DecidableEq

def transition (prev : Option Bool) (new : Bool) : Option Bool :=
  match prev with
  | some p => if p != new then some new else none
  | none => none

def ProbeTask.note (t : ProbeTask) (verdict : Key × Bool) : ProbeTask :=
  { t with
    lines := t.lines ++ ((transition (t.prev.lookup verdict.1) verdict.2).map fun new => (verdict.1, new)).toList
    prev := t.prev.insert verdict.1 verdict.2
    seen := t.seen ++ [verdict] }

structure Prober where
  runtime : RuntimeSnapshot
  health : HealthRegistry
  tasks : List ProbeTask := []
  -- `probe_task`
  handle : Option Nat := none

inductive TaskEvent where
  | poll
  -- the timer is over, the sweep begins
  | wake
  | answer (k : Nat) (ok : Bool)
  | finish
  | wait
  deriving DecidableEq

inductive Event where
  | applyRuntime (cfg : Config) (generation : Nat)
  | spawn
  | task (i : Nat) (e : TaskEvent)

def abort (tasks : List ProbeTask) (handle : Option Nat) : List ProbeTask :=
  match handle with
  | none => tasks
  | some i => tasks.modify i fun t => { t with aborted := true }

def spawn (g : Prober) : Prober :=
  let tasks := abort g.tasks g.handle
  match smallestInterval g.runtime with
  | none => { g with tasks := tasks, handle := none }
  | some interval => { g with tasks := tasks ++ [{ interval := interval }], handle := some tasks.length }

def record (h : HealthRegistry) (job : Job) (ok : Bool) : Bool × HealthRegistry :=
  h.recordProbe job.upstream job.idx job.addr ok job.unhealthyThreshold job.healthyThreshold

def ProbeTask.run (t : ProbeTask) (rt : RuntimeSnapshot) (h : HealthRegistry) (e : TaskEvent)
    : Option (ProbeTask × HealthRegistry) :=
  match e, t.sweep with
  | .poll, _ => if t.aborted || t.polled then none else some ({ t with polled := true }, h)
  | .wait, _ => if t.polled then some ({ t with polled := false }, h) else none
  | .wake, none => if t.polled then some ({ t with sweep := some (.start rt) }, h) else none
  | .answer k ok, some sweep =>
    match sweep.jobs[k]?, sweep.results[k]? with
    | some job, some none =>
      if t.polled then
        let (healthy, h) := record h job ok
        some ({ t with sweep := some { sweep with results := sweep.results.set k (some healthy) } }, h)
      else
        none
    | _, _ => none
  | .finish, some sweep =>
    if t.polled && sweep.results.all Option.isSome then
      let verdicts := sweep.verdicts.filterMap fun v => v.2.map fun healthy => (v.1, healthy)
      some ({ verdicts.foldl ProbeTask.note t with sweep := none }, h)
    else
      none
  | _, _ => none

namespace Prober

def step (g : Prober) (e : Event) : Option Prober :=
  match e with
  | .applyRuntime cfg generation =>
    let (health, runtime) := OpenRusty.applyRuntime g.health cfg generation
    some { g with health := health, runtime := runtime }
  | .spawn => some (spawn g)
  | .task i e =>
    g.tasks[i]?.bind fun t =>
      (t.run g.runtime g.health e).map fun r => { g with tasks := g.tasks.set i r.1, health := r.2 }

def boot (cfg : Config) (generation : Nat) : Prober where
  health := (OpenRusty.applyRuntime HealthRegistry.new cfg generation).1
  runtime := (OpenRusty.applyRuntime HealthRegistry.new cfg generation).2

end Prober

section lines

def flips (l : List Bool) : List Bool :=
  match l with
  | a :: b :: l => if b != a then b :: flips (b :: l) else flips (b :: l)
  | _ => []

theorem flips_concat (l : List Bool) (b : Bool)
    : flips (l ++ [b]) = flips l ++ (transition l.getLast? b).toList := by
  induction l with
  | nil => rfl
  | cons a l ih =>
    cases l with
    | nil => cases a <;> cases b <;> rfl
    | cons a' l =>
      rw [List.cons_append, List.cons_append] at *
      rw [flips, flips, ih, List.getLast?_cons_cons]
      split
      . rw [List.cons_append]
      . rfl

def verdictsOf (key : Key) (l : List (Key × Bool)) : List Bool :=
  l.filterMap fun v => if v.1 = key then some v.2 else none

theorem verdictsOf_append (key : Key) (l l' : List (Key × Bool))
    : verdictsOf key (l ++ l') = verdictsOf key l ++ verdictsOf key l' :=
  List.filterMap_append

def Told (t : ProbeTask) : Prop :=
  ∀ key, verdictsOf key t.lines = flips (verdictsOf key t.seen)
    ∧ t.prev.lookup key = (verdictsOf key t.seen).getLast?

theorem told_note {t : ProbeTask} (h : Told t) (verdict : Key × Bool) : Told (t.note verdict) := by
  obtain ⟨key', new⟩ := verdict
  intro key
  obtain ⟨hlines, hprev⟩ := h key
  unfold ProbeTask.note
  dsimp only
  rw [verdictsOf_append, verdictsOf_append]
  by_cases hkey : key' = key
  . subst hkey
    have hseen : verdictsOf key' [(key', new)] = [new] := by
      simp [verdictsOf]
    have hline : verdictsOf key' ((transition (t.prev.lookup key') new).map fun new => (key', new)).toList
        = (transition (t.prev.lookup key') new).toList := by
      cases transition (t.prev.lookup key') new <;> simp [verdictsOf]
    rw [hseen, hline, flips_concat, ← hlines, hprev, AList.lookup_insert, List.getLast?_concat]
    exact ⟨rfl, rfl⟩
  . have hseen : verdictsOf key [(key', new)] = [] := by
      simp [verdictsOf, hkey]
    have hline : verdictsOf key ((transition (t.prev.lookup key') new).map fun new => (key', new)).toList = [] := by
      cases transition (t.prev.lookup key') new <;> simp [verdictsOf, hkey]
    rw [hseen, hline, List.append_nil, List.append_nil, AList.lookup_insert_ne (Ne.symm hkey)]
    exact ⟨hlines, hprev⟩

theorem told_foldl {t : ProbeTask} (h : Told t) (verdicts : List (Key × Bool))
    : Told (verdicts.foldl ProbeTask.note t) := by
  induction verdicts generalizing t with
  | nil => exact h
  | cons v verdicts ih => exact ih (told_note h v)

end lines

section run

theorem foldl_note_frame (t : ProbeTask) (verdicts : List (Key × Bool))
    : (verdicts.foldl ProbeTask.note t).interval = t.interval
      ∧ (verdicts.foldl ProbeTask.note t).aborted = t.aborted := by
  induction verdicts generalizing t with
  | nil => exact ⟨rfl, rfl⟩
  | cons v verdicts ih => exact ih (t.note v)

structure Frame (rt : RuntimeSnapshot) (h h' : HealthRegistry) (t t' : ProbeTask) : Prop where
  interval : t'.interval = t.interval
  aborted : t'.aborted = t.aborted
  alive : t.aborted = true → t.polled = true
  told : Told t → Told t'
  sweep : ∀ sweep', t'.sweep = some sweep' →
    sweep'.jobs = jobs rt ∨ ∃ sweep, t.sweep = some sweep ∧ sweep'.jobs = sweep.jobs
  active : h'.active = h.active ∨ t.polled = true

theorem frame_of_run {rt : RuntimeSnapshot} {h h' : HealthRegistry} {t t' : ProbeTask} {e : TaskEvent}
    (hrun : t.run rt h e = some (t', h'))
    : Frame rt h h' t t' := by
  have hsame (sweep' : Sweep) (hsweep : t.sweep = some sweep')
      : sweep'.jobs = jobs rt ∨ ∃ sweep, t.sweep = some sweep ∧ sweep'.jobs = sweep.jobs :=
    .inr ⟨sweep', hsweep, rfl⟩
  unfold ProbeTask.run at hrun
  split at hrun
  . split at hrun
    . cases hrun
    . next hidle =>
      cases hrun
      rw [Bool.or_eq_true, not_or] at hidle
      exact ⟨rfl, rfl, fun haborted => absurd haborted hidle.1, id, hsame, .inl rfl⟩
  . split at hrun
    . next hpolled =>
      cases hrun
      exact ⟨rfl, rfl, fun _ => hpolled, id, hsame, .inl rfl⟩
    . cases hrun
  . split at hrun
    . next hpolled =>
      cases hrun
      refine ⟨rfl, rfl, fun _ => hpolled, id, ?_, .inl rfl⟩
      rintro sweep' ⟨⟩
      exact .inl rfl
    . cases hrun
  . next k ok sweep hsweep =>
    split at hrun
    . split at hrun
      . next hpolled =>
        cases hrun
        refine ⟨rfl, rfl, fun _ => hpolled, id, ?_, .inr hpolled⟩
        rintro sweep' ⟨⟩
        exact .inr ⟨sweep, hsweep, rfl⟩
      . cases hrun
    . cases hrun
  . next sweep hsweep =>
    split at hrun
    . next hdone =>
      cases hrun
      rw [Bool.and_eq_true] at hdone
      obtain ⟨hinterval, haborted⟩ := foldl_note_frame t
        (sweep.verdicts.filterMap fun v => v.2.map fun healthy => (v.1, healthy))
      exact ⟨hinterval, haborted, fun _ => hdone.1, fun htold => told_foldl htold _, fun _ hnone => (by cases hnone),
        .inl rfl⟩
    . cases hrun
  . cases hrun

end run

namespace Prober

structure Inv (g : Prober) : Prop where
  handle : ∀ i, g.handle = some i → i < g.tasks.length
  alive : ∀ (i : Nat) t, g.tasks[i]? = some t → (t.aborted = false ↔ g.handle = some i)
  told : ∀ (i : Nat) t, g.tasks[i]? = some t → Told t

def Armed (rt : RuntimeSnapshot) (g : Prober) : Prop :=
  match smallestInterval rt with
  | none => g.handle = none
  | some interval => ∃ i t, g.handle = some i ∧ g.tasks[i]? = some t ∧ t.interval = interval

variable {g g' : Prober} {e : Event}

theorem getElem?_abort {tasks : List ProbeTask} {handle : Option Nat} {i : Nat} {t : ProbeTask}
    (h : (abort tasks handle)[i]? = some t)
    : ∃ u, tasks[i]? = some u ∧ (t = u ∧ handle ≠ some i ∨ t = { u with aborted := true }) := by
  unfold abort at h
  split at h
  . exact ⟨t, h, .inl ⟨rfl, by simp⟩⟩
  . next k =>
    rw [List.getElem?_modify] at h
    obtain ⟨u, hu, rfl⟩ := Option.map_eq_some_iff.mp h
    refine ⟨u, hu, ?_⟩
    split
    . exact .inr rfl
    . next hne => exact .inl ⟨rfl, by simpa using hne⟩

theorem aborted_of_abort (h : g.Inv) {i : Nat} {t : ProbeTask} (ht : (abort g.tasks g.handle)[i]? = some t)
    : t.aborted = true ∧ Told t := by
  obtain ⟨u, hu, ⟨rfl, hne⟩ | rfl⟩ := getElem?_abort ht
  . refine ⟨?_, h.told i t hu⟩
    rw [← Bool.not_eq_false]
    intro halive
    exact hne ((h.alive i t hu).mp halive)
  . exact ⟨rfl, h.told i u hu⟩

theorem getElem?_armed {tasks : List ProbeTask} {interval i : Nat} {t : ProbeTask}
    (h : (tasks ++ [{ interval := interval }])[i]? = some t)
    : i < tasks.length ∧ tasks[i]? = some t ∨ i = tasks.length ∧ t = { interval := interval } := by
  rw [List.getElem?_append] at h
  split at h
  . next hlt => exact .inl ⟨hlt, h⟩
  . next hge =>
    rw [List.getElem?_singleton] at h
    split at h
    . cases h
      exact .inr ⟨by omega, rfl⟩
    . cases h

theorem told_new (interval : Nat) : Told { interval := interval } := fun _ => ⟨rfl, rfl⟩

theorem inv_of_step (h : g.Inv) (hstep : g.step e = some g') : g'.Inv := by
  unfold step at hstep
  cases e with
  | applyRuntime cfg generation =>
    cases hstep
    exact ⟨h.handle, h.alive, h.told⟩
  | spawn =>
    cases hstep
    unfold spawn
    dsimp only
    split
    . refine ⟨?_, ?_, fun i t ht => (aborted_of_abort h ht).2⟩
      . rintro i ⟨⟩
      . intro i t ht
        rw [(aborted_of_abort h ht).1]
        simp
    . next interval _ =>
      refine ⟨?_, ?_, ?_⟩
      . rintro i ⟨⟩
        simp
      . intro i t ht
        rcases getElem?_armed ht with ⟨hlt, hold⟩ | ⟨rfl, rfl⟩
        . rw [(aborted_of_abort h hold).1]
          simp only [Bool.true_eq_false, Option.some.injEq, false_iff]
          omega
        . simp
      . intro i t ht
        rcases getElem?_armed ht with ⟨-, hold⟩ | ⟨-, rfl⟩
        . exact (aborted_of_abort h hold).2
        . exact told_new interval
  | task i e =>
    obtain ⟨t, ht, hmap⟩ := Option.bind_eq_some_iff.mp hstep
    obtain ⟨⟨t', health⟩, hrun, rfl⟩ := Option.map_eq_some_iff.mp hmap
    have hframe := frame_of_run hrun
    refine ⟨?_, ?_, ?_⟩
    . intro j hj
      rw [List.length_set]
      exact h.handle j hj
    . intro j u hu
      rcases Pool.getElem?_set_cases hu with ⟨rfl, rfl⟩ | ⟨-, hold⟩
      . rw [hframe.aborted]
        exact h.alive j t ht
      . exact h.alive j u hold
    . intro j u hu
      rcases Pool.getElem?_set_cases hu with ⟨rfl, rfl⟩ | ⟨-, hold⟩
      . exact hframe.told (h.told j t ht)
      . exact h.told j u hold

theorem inv_boot (cfg : Config) (generation : Nat) : (boot cfg generation).Inv where
  handle := by
    rintro i ⟨⟩
  alive := by
    rintro i t ⟨⟩
  told := by
    rintro i t ⟨⟩

theorem armed_of_step {rt : RuntimeSnapshot} (h : Armed rt g) (he : e ≠ .spawn) (hstep : g.step e = some g')
    : Armed rt g' := by
  unfold step at hstep
  cases e with
  | applyRuntime cfg generation =>
    cases hstep
    exact h
  | spawn => exact absurd rfl he
  | task i e =>
    obtain ⟨t, ht, hmap⟩ := Option.bind_eq_some_iff.mp hstep
    obtain ⟨⟨t', health⟩, hrun, rfl⟩ := Option.map_eq_some_iff.mp hmap
    have hframe := frame_of_run hrun
    unfold Armed at *
    split at h
    . exact h
    . obtain ⟨j, u, hj, hu, hinterval⟩ := h
      by_cases hij : i = j
      . subst hij
        rw [ht] at hu
        cases hu
        exact ⟨i, t', hj, List.getElem?_set_self (List.getElem?_eq_some_iff.mp ht).1, hframe.interval.trans hinterval⟩
      . refine ⟨j, u, hj, ?_, hinterval⟩
        rw [List.getElem?_set_ne hij]
        exact hu

theorem armed_spawn (g : Prober) : Armed g.runtime (spawn g) := by
  unfold Armed spawn
  dsimp only
  split
  . rfl
  . next interval _ =>
    refine ⟨_, { interval := interval }, rfl, ?_, rfl⟩
    rw [List.getElem?_append_right (Nat.le_refl _), Nat.sub_self]
    rfl

theorem still_of_step {i : Nat} {t : ProbeTask} (h : g.Inv) (ht : g.tasks[i]? = some t) (haborted : t.aborted = true)
    (hpolled : t.polled = false) (hstep : g.step e = some g')
    : g'.tasks[i]? = some t := by
  unfold step at hstep
  cases e with
  | applyRuntime cfg generation =>
    cases hstep
    exact ht
  | spawn =>
    cases hstep
    have hkept : (abort g.tasks g.handle)[i]? = some t := by
      have hne : g.handle ≠ some i := by
        intro hhandle
        rw [(h.alive i t ht).mpr hhandle] at haborted
        cases haborted
      unfold abort
      split
      . exact ht
      . next k hk =>
        have hki : k ≠ i := by
          rintro rfl
          exact hne hk
        rw [List.getElem?_modify, ht]
        simp [hki]
    unfold spawn
    dsimp only
    split
    . exact hkept
    . rw [List.getElem?_append_left (List.getElem?_eq_some_iff.mp hkept).1]
      exact hkept
  | task k e =>
    obtain ⟨u, hu, hmap⟩ := Option.bind_eq_some_iff.mp hstep
    obtain ⟨⟨u', health⟩, hrun, rfl⟩ := Option.map_eq_some_iff.mp hmap
    by_cases hk : k = i
    . subst hk
      rw [ht] at hu
      cases hu
      rw [(frame_of_run hrun).alive haborted] at hpolled
      cases hpolled
    . dsimp only
      rw [List.getElem?_set_ne hk]
      exact ht

structure Still (active : AList fun _ : String × SocketAddr => ActivePeer) (g : Prober) : Prop where
  tasks : ∀ (i : Nat) t, g.tasks[i]? = some t → t.aborted = true ∧ t.polled = false
  active : g.health.active = active

theorem active_registered (h : HealthRegistry) (upstreams : List UpstreamConfig)
    : (upstreams.foldl registerUpstream h).active = h.active := by
  induction upstreams generalizing h with
  | nil => rfl
  | cons uc upstreams ih => exact ih (registerUpstream h uc)

theorem Still.step {active : AList fun _ : String × SocketAddr => ActivePeer} (h : Still active g) (he : e ≠ .spawn)
    (hstep : g.step e = some g')
    : Still active g' := by
  unfold Prober.step at hstep
  cases e with
  | applyRuntime cfg generation =>
    cases hstep
    exact ⟨h.tasks, (active_registered g.health cfg.upstreams).trans h.active⟩
  | spawn => exact absurd rfl he
  | task i e =>
    obtain ⟨t, ht, hmap⟩ := Option.bind_eq_some_iff.mp hstep
    obtain ⟨⟨t', health⟩, hrun, rfl⟩ := Option.map_eq_some_iff.mp hmap
    obtain ⟨haborted, hpolled⟩ := h.tasks i t ht
    rw [(frame_of_run hrun).alive haborted] at hpolled
    cases hpolled

def Sourced (g₀ : Prober) (es : List Event) (g : Prober) : Prop :=
  ∀ (i : Nat) t sweep, g.tasks[i]? = some t → t.sweep = some sweep →
    ∃ before after q, es = before ++ after ∧ Machine.run step g₀ before = some q ∧ sweep.jobs = jobs q.runtime

theorem sourced_of_step {g₀ : Prober} {es : List Event} (hrun : Machine.run step g₀ es = some g) (h : Sourced g₀ es g)
    (hstep : g.step e = some g')
    : Sourced g₀ (es ++ [e]) g' := by
  have hlater {sweep : Sweep} (hs : ∃ before after q, es = before ++ after ∧ Machine.run step g₀ before = some q
      ∧ sweep.jobs = jobs q.runtime)
      : ∃ before after q, es ++ [e] = before ++ after ∧ Machine.run step g₀ before = some q
        ∧ sweep.jobs = jobs q.runtime := by
    obtain ⟨before, after, q, rfl, hq, hjobs⟩ := hs
    exact ⟨before, after ++ [e], q, by rw [List.append_assoc], hq, hjobs⟩
  intro i t sweep ht hsweep
  unfold step at hstep
  cases e with
  | applyRuntime cfg generation =>
    cases hstep
    exact hlater (h i t sweep ht hsweep)
  | spawn =>
    cases hstep
    have hold (hold : (abort g.tasks g.handle)[i]? = some t) : ∃ u, g.tasks[i]? = some u ∧ u.sweep = some sweep := by
      obtain ⟨u, hu, ⟨rfl, -⟩ | rfl⟩ := getElem?_abort hold
      . exact ⟨t, hu, hsweep⟩
      . exact ⟨u, hu, hsweep⟩
    have hfrom : ∃ u, g.tasks[i]? = some u ∧ u.sweep = some sweep := by
      unfold spawn at ht
      dsimp only at ht
      split at ht
      . exact hold ht
      . rcases getElem?_armed ht with ⟨-, h⟩ | ⟨-, rfl⟩
        . exact hold h
        . cases hsweep
    obtain ⟨u, hu, husweep⟩ := hfrom
    exact hlater (h i u sweep hu husweep)
  | task k e =>
    obtain ⟨u, hu, hmap⟩ := Option.bind_eq_some_iff.mp hstep
    obtain ⟨⟨u', health⟩, htask, rfl⟩ := Option.map_eq_some_iff.mp hmap
    rcases Pool.getElem?_set_cases ht with ⟨rfl, rfl⟩ | ⟨-, hold⟩
    . rcases (frame_of_run htask).sweep sweep hsweep with hnew | ⟨sweep', husweep, hjobs⟩
      . exact ⟨es, [_], g, rfl, hrun, hnew⟩
      . apply hlater
        rw [hjobs]
        exact h i u sweep' hu husweep
    . exact hlater (h i t sweep hold hsweep)

theorem inv_of_run {cfg : Config} {generation : Nat} {es : List Event}
    (hrun : Machine.run step (boot cfg generation) es = some g)
    : g.Inv :=
  Machine.inv_of_run_all (fun _ _ _ h hs => inv_of_step h hs) (inv_boot cfg generation) hrun

theorem sourced_of_run {cfg : Config} {generation : Nat} {es : List Event}
    (hrun : Machine.run step (boot cfg generation) es = some g)
    : Sourced (boot cfg generation) es g := by
  have h : Machine.run step (boot cfg generation) ([] ++ es) = some g ∧ Sourced (boot cfg generation) ([] ++ es) g := by
    apply Machine.inv_of_history (I := fun es g => Machine.run step (boot cfg generation) es = some g
      ∧ Sourced (boot cfg generation) es g) _ _ hrun
    . rintro es g e g' ⟨hes, hsourced⟩ hstep
      refine ⟨?_, sourced_of_step hes hsourced hstep⟩
      rw [Machine.run_concat, hes]
      exact hstep
    . refine ⟨rfl, ?_⟩
      rintro i t sweep ⟨⟩
  exact h.2

theorem armed_of_run {cfg : Config} {generation : Nat} {before after : List Event}
    (hrun : Machine.run step (boot cfg generation) (before ++ .spawn :: after) = some g)
    (hafter : ∀ e ∈ after, e ≠ .spawn)
    : ∃ q, Machine.run step (boot cfg generation) before = some q ∧ Armed q.runtime g := by
  rw [Machine.run_append] at hrun
  obtain ⟨q, hq, hrest⟩ := Option.bind_eq_some_iff.mp hrun
  obtain ⟨a, ha, hrest⟩ := (Machine.run_cons_eq_some _).mp hrest
  cases ha
  refine ⟨q, hq, ?_⟩
  exact Machine.inv_of_run (fun _ _ _ h he hs => armed_of_step h he hs) (armed_spawn q)
    (Machine.guarded_of_forall hafter _) hrest

theorem still_of_armed {rt : RuntimeSnapshot} (hinv : g.Inv) (harmed : Armed rt g) (hnone : smallestInterval rt = none)
    (hpolled : ∀ t ∈ g.tasks, t.polled = false)
    : Still g.health.active g := by
  unfold Armed at harmed
  rw [hnone] at harmed
  refine ⟨?_, rfl⟩
  intro i t ht
  refine ⟨?_, hpolled t (List.mem_of_getElem? ht)⟩
  rw [← Bool.not_eq_false]
  intro halive
  rw [(hinv.alive i t ht).mp halive] at harmed
  cases harmed

theorem still_of_run {i : Nat} {t : ProbeTask} {es : List Event} (hinv : g.Inv) (ht : g.tasks[i]? = some t)
    (haborted : t.aborted = true) (hpolled : t.polled = false) (hrun : Machine.run step g es = some g')
    : g'.tasks[i]? = some t := by
  have h : g'.Inv ∧ g'.tasks[i]? = some t := by
    apply Machine.inv_of_run_all (I := fun g => g.Inv ∧ g.tasks[i]? = some t) _ ⟨hinv, ht⟩ hrun
    rintro a e b ⟨hinv, ht⟩ hstep
    exact ⟨inv_of_step hinv hstep, still_of_step hinv ht haborted hpolled hstep⟩
  exact h.2

theorem supervised {cfg : Config} {generation : Nat} {es : List Event}
    (hrun : Machine.run step (boot cfg generation) es = some g)
    : (∀ (i : Nat) t, g.tasks[i]? = some t → (t.aborted = false ↔ g.handle = some i))
      ∧ (∀ before after, es = before ++ .spawn :: after → (∀ e ∈ after, e ≠ .spawn) →
          ∃ q, Machine.run step (boot cfg generation) before = some q ∧ Armed q.runtime g
            ∧ (smallestInterval q.runtime = none → (∀ t ∈ g.tasks, t.polled = false) →
              ∀ es' g', (∀ e ∈ es', e ≠ .spawn) → Machine.run step g es' = some g' →
                g'.health.active = g.health.active))
      ∧ (∀ (i : Nat) t, g.tasks[i]? = some t → t.aborted = true → t.polled = false →
          ∀ es' g', Machine.run step g es' = some g' → g'.tasks[i]? = some t)
      ∧ (∀ t ∈ g.tasks, ∀ key, verdictsOf key t.lines = flips (verdictsOf key t.seen))
      ∧ ∀ t ∈ g.tasks, ∀ sweep, t.sweep = some sweep → ∃ before after q, es = before ++ after
          ∧ Machine.run step (boot cfg generation) before = some q ∧ sweep.jobs = jobs q.runtime := by
  have hinv := inv_of_run hrun
  refine ⟨hinv.alive, ?_, ?_, ?_, ?_⟩
  . rintro before after rfl hafter
    obtain ⟨q, hq, harmed⟩ := armed_of_run hrun hafter
    refine ⟨q, hq, harmed, ?_⟩
    intro hnone hpolled es' g' hes' hrun'
    have hstill := still_of_armed hinv harmed hnone hpolled
    exact (Machine.inv_of_run (fun _ _ _ h he hs => h.step he hs) hstill (Machine.guarded_of_forall hes' _)
      hrun').active
  . intro i t ht haborted hpolled es' g' hrun'
    exact still_of_run hinv ht haborted hpolled hrun'
  . intro t ht key
    obtain ⟨i, hi⟩ := List.getElem?_of_mem ht
    exact (hinv.told i t hi key).1
  . intro t ht sweep hsweep
    obtain ⟨i, hi⟩ := List.getElem?_of_mem ht
    exact sourced_of_run hrun i t sweep hi hsweep

def probedPeer : SocketAddr := { ip := .v4 0x0a000001, port := 80 }

def probedConfig : Config where
  upstreams := [{
    name := "u"
    peers := [{ addr := probedPeer }]
    health := { active := some { unhealthyThreshold := 1, healthyThreshold := 1 } }
  }]

def checksDropped : List Event :=
  [.spawn, .task 0 .poll, .task 0 .wake, .task 0 (.answer 0 true), .task 0 .finish, .task 0 .wait, .task 0 .poll,
    .task 0 .wake, .task 0 (.answer 0 false), .task 0 .finish, .applyRuntime {} 2, .spawn, .task 0 .wait]

theorem supervised_checksDropped
    : ∃ g, Machine.run step (boot probedConfig 1) checksDropped = some g
        ∧ (∀ t ∈ g.tasks, t.aborted = true ∧ verdictsOf ("u", probedPeer) t.lines = [false])
        ∧ g.health.isActiveHealthy "u" probedPeer = false
        ∧ ∀ es' g', (∀ e ∈ es', e ≠ .spawn) → Machine.run step g es' = some g' →
            g'.health.isActiveHealthy "u" probedPeer = false := by
  have hend : (Machine.run step (boot probedConfig 1) checksDropped).map (fun g =>
      (g.tasks.map fun t => (t.aborted, t.polled, verdictsOf ("u", probedPeer) t.seen),
        g.health.isActiveHealthy "u" probedPeer)) = some ([(true, false, [true, false])], false) := by
    decide +kernel
  have hdropped : (Machine.run step (boot probedConfig 1) (checksDropped.take 11)).map (fun q =>
      smallestInterval q.runtime) = some none := by
    decide +kernel
  obtain ⟨g, hg, hresult⟩ := Option.map_eq_some_iff.mp hend
  obtain ⟨htasks, hverdict⟩ := Prod.mk.inj hresult
  obtain ⟨t, htask, ht⟩ := List.map_eq_singleton_iff.mp htasks
  obtain ⟨haborted, hrest⟩ := Prod.mk.inj ht
  obtain ⟨hpolled, hseen⟩ := Prod.mk.inj hrest
  obtain ⟨-, hspawned, -, hlines, -⟩ := supervised hg
  obtain ⟨q, hq, -, hquiet⟩ := hspawned (checksDropped.take 11) [.task 0 .wait] rfl (by simp)
  rw [hq] at hdropped
  rw [htask] at hlines hquiet
  simp only [List.mem_singleton, forall_eq] at hlines hquiet
  refine ⟨g, hg, ?_, hverdict, ?_⟩
  . rw [htask]
    simp only [List.mem_singleton, forall_eq]
    refine ⟨haborted, ?_⟩
    rw [hlines, hseen]
    rfl
  . intro es' g' hes' hrun'
    unfold HealthRegistry.isActiveHealthy
    rw [hquiet (Option.some.inj hdropped) hpolled es' g' hes' hrun']
    exact hverdict

end Prober

end ActiveProbe

end OpenRusty
