import OpenRusty.Server.Pipeline.Lemmas

/-!
This module contains the conservation of the in-flight slots. A request that is dropped while it waits
for a peer, and a handshake whose outgoing request cannot be built, end without giving their slot back;
in runs without such steps every slot comes back and the gauges are at zero when no request is in
progress.
-/

namespace OpenRusty

namespace Server

variable {γ ω : Type}

/-- The step is none of the two that lose a slot, and no reload doubles a gauge. -/
def KeepsSlots (p : Server γ ω) (e : Pool.Event (Arrival γ ω) Input) : Prop :=
  match e with
  | .spawn _ => True
  | .step i x =>
    ∀ t ∈ p.threads[i]?, t.leaks x = false ∧ ∀ op ∈ t.op x, op.RepeatsIdle p.shared.health

instance (p : Server γ ω) (e : Pool.Event (Arrival γ ω) Input) : Decidable (p.KeepsSlots e) :=
  match e with
  | .spawn _ => isTrue trivial
  | .step i x =>
    inferInstanceAs (Decidable (∀ t ∈ p.threads[i]?,
      t.leaks x = false ∧ ∀ op ∈ t.op x, op.RepeatsIdle p.shared.health))

structure Conserved (p : Server γ ω) : Prop where
  accounted : ∀ (j : Nat) t, p.threads[j]? = some t → t.Accounted
  within : p.shared.health.Within fun v a => p.sum (Task.holding v a)

theorem conserved_init (world : World ω) : Conserved (init world : Server γ ω) where
  accounted := by
    intro j t ht
    cases ht
  within := by
    apply HealthRegistry.within_new

theorem Conserved.spawn {p : Server γ ω} (h : Conserved p) (a : Arrival γ ω)
    : Conserved { p with threads := p.threads ++ [a.task] } where
  accounted := by
    apply Pool.forall_concat
    . intro r hr
      cases a <;> cases hr
    . exact h.accounted
  within := by
    apply h.within.mono
    intro v addr
    rw [Pool.sum_spawn]
    omega

theorem Conserved.act {p : Server γ ω} (h : Conserved p) {i : Nat} {x : Input} {t t' : Task γ ω}
    {s : AppState ω} (ht : p.threads[i]? = some t) (hact : t.act p.shared x = some (s, t'))
    (hleak : t.leaks x = false) (hidle : ∀ op ∈ t.op x, op.RepeatsIdle p.shared.health)
    : Conserved { shared := s, threads := p.threads.set i t' } where
  accounted := by
    apply Pool.forall_set
    . exact Task.act_accounted hact hleak (h.accounted i t ht)
    . intro j u _ hu
      exact h.accounted j u hu
  within := by
    -- what the task acquires and releases is what the sum of all holders changes by
    have hsum (v : String) (a : SocketAddr)
        : p.sum (Task.holding v a) + (t.acquires x v).count a
            =
          Pool.sum (Task.holding v a) { shared := s, threads := p.threads.set i t' }
            + (t.releases x v).count a := by
      have hholding := Task.act_holding hact hleak v a
      have hset := Pool.sum_set (Task.holding v a) p ht s t'
      omega
    have hhealth := Task.act_health hact
    unfold Task.acquires Task.releases at hsum
    cases hop : t.op x with
    | none =>
      rw [hop] at hhealth
      rw [hop] at hsum
      rw [hhealth]
      apply h.within.mono
      intro v a
      have := hsum v a
      simpa using this.le
    | some op =>
      rw [hop] at hhealth
      rw [hop] at hsum
      rw [hhealth]
      apply h.within.exec
      . intro v a
        exact (hsum v a).le
      . exact hidle op hop

theorem Conserved.step {p q : Server γ ω} {e : Pool.Event (Arrival γ ω) Input} (h : Conserved p)
    (hok : p.KeepsSlots e) (hstep : step p e = some q)
    : Conserved q := by
  obtain ⟨a, rfl, rfl⟩ | ⟨i, x, t, s, t', rfl, ht, hact, rfl⟩ := Pool.step_cases _ _ hstep
  . exact h.spawn a
  . obtain ⟨hleak, hidle⟩ := hok t ht
    exact h.act ht hact hleak hidle

theorem held_of_not_inProgress {r : Request γ ω} (h : r.inProgress = false) : r.held = [] := by
  unfold Request.inProgress at h
  unfold Request.held
  split at h
  . next hstage => simp [hstage, Stage.holds]
  . next hstage => simp [hstage, Stage.holds]
  . cases h

theorem slots_released_of_keepsSlots {world : World ω} {es : List (Pool.Event (Arrival γ ω) Input)}
    {p : Server γ ω} (hok : Machine.Guarded step KeepsSlots (init world) es)
    (hrun : Machine.run step (init world) es = some p)
    : (∀ r, Task.request r ∈ p.threads → r.acquired = r.released ++ r.held
        ∧ (r.inProgress = false → r.acquired = r.released))
      ∧ ((∀ r, Task.request r ∈ p.threads → r.inProgress = false) →
        ∀ upstream i a q, p.shared.health.slot upstream i = some (a, q) → q.inFlight = 0) := by
  have hconserved : Conserved p :=
    Machine.inv_of_run (fun _ _ _ h hok hstep => h.step hok hstep) (conserved_init world) hok hrun
  constructor
  . intro r hr
    obtain ⟨j, hj⟩ := List.mem_iff_getElem?.mp hr
    have hacc := hconserved.accounted j _ hj r rfl
    refine ⟨hacc, ?_⟩
    intro hdone
    rw [held_of_not_inProgress hdone, List.append_nil] at hacc
    exact hacc
  . intro hrest upstream i a q hslot
    have hle := (hconserved.within upstream i a q hslot).1
    have hzero : p.sum (Task.holding upstream a) = 0 := by
      apply Pool.sum_eq_zero
      intro t ht
      cases t with
      | request r =>
        change (if r.up.name = upstream then r.held.count a else 0) = 0
        rw [held_of_not_inProgress (hrest r ht)]
        apply ite_self
      | arriving | reload | probe | stopped => rfl
    dsimp only at hle
    omega

section runs

def primary : SocketAddr := { ip := .v4 0x0a000001, port := 80 }

def secondary : SocketAddr := { ip := .v4 0x0a000002, port := 80 }

def twoPeers : Config where
  upstreams := [{ name := "u", retries := 1, peers := [{ addr := primary }, { addr := secondary }] }]
  routes := [{ pathPrefix := "/", upstream := "u" }]

def upAndPinned : List (Pool.Event (Arrival Unit Unit) Input) :=
  [.spawn (.reload twoPeers 1), .step 0 (.tick 0), .step 0 (.tick 0),
    .spawn (.request .http "GET" "u" (.new [] .empty [])), .step 1 (.tick 1)]

def attemptSteps : List (Pool.Event (Arrival Unit Unit) Input) :=
  [.step 1 (.tick 2), .step 1 (.tick 3), .step 1 (.tick 4), .step 1 (.tick 5)]

def retriedRun : List (Pool.Event (Arrival Unit Unit) Input) :=
  upAndPinned ++ attemptSteps ++ [.step 1 (.outcome (.failed .connect)), .step 1 (.tick 6),
    .step 1 (.tick 7)] ++ attemptSteps ++ [.step 1 (.outcome (.answered 200)), .step 1 (.tick 8),
    .step 1 (.tick 9)]

def droppedRun : List (Pool.Event (Arrival Unit Unit) Input) :=
  upAndPinned ++ attemptSteps ++ [.step 1 .drop]

def idleWorld : World Unit := { outside := (), errors := ∅ }

def accounts (p : Server Unit Unit) : List (List SocketAddr × List SocketAddr × Bool) :=
  (p.threads.filterMap Task.request?).map fun r => (r.acquired, r.released, r.inProgress)

theorem retriedRun_releases
    : ∃ p, Machine.run step (init idleWorld) retriedRun = some p
      ∧ accounts p = [([primary, secondary], [primary, secondary], false)]
      ∧ ∀ upstream i a q, p.shared.health.slot upstream i = some (a, q) → q.inFlight = 0 := by
  have hrun : (Machine.run step (init idleWorld) retriedRun).map accounts
      = some [([primary, secondary], [primary, secondary], false)] := by
    decide +kernel
  obtain ⟨p, hp, haccounts⟩ := Option.map_eq_some_iff.mp hrun
  refine ⟨p, hp, haccounts, ?_⟩
  apply (slots_released_of_keepsSlots (by decide +kernel) hp).2
  intro r hr
  have hmem : (r.acquired, r.released, r.inProgress) ∈ accounts p :=
    List.mem_map_of_mem (List.mem_filterMap.mpr ⟨_, hr, rfl⟩)
  rw [haccounts, List.mem_singleton] at hmem
  exact congrArg (fun x => x.2.2) hmem

theorem droppedRun_leaks
    : ∃ p, Machine.run step (init idleWorld) droppedRun = some p
      ∧ accounts p = [([primary], [], false)]
      ∧ p.shared.health.slot "u" 0 = some (primary, { inFlight := 1 }) := by
  have hrun : (Machine.run step (init idleWorld) droppedRun).map
        (fun p => (accounts p, p.shared.health.slot "u" 0))
      = some ([([primary], [], false)], some (primary, { inFlight := 1 })) := by
    decide +kernel
  obtain ⟨p, hp, heq⟩ := Option.map_eq_some_iff.mp hrun
  exact ⟨p, hp, congrArg Prod.fst heq, congrArg Prod.snd heq⟩

end runs

end Server

end OpenRusty
