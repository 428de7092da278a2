import OpenRusty.Wasm.Registry.Lemmas

/-!
This module contains the proof that concurrent reloads of a registry take effect one after the other,
for every interleaving of any number of calls with each other and with the calls of the plugins into
their host states.
-/

namespace OpenRusty

namespace PluginRegistry

variable {γ ω : Type}

def okCalls (p : Users γ ω) : Nat := p.sum fun u => if u.succeeded.isSome then 1 else 0

structure Serial (first : Nat) (p : Users γ ω) : Prop where
  chain : p.shared.swap.history.IsChain Follows
  prepared : ∀ (i : Nat) u, p.threads[i]? = some u → u.Prepared p.shared.swap
  bounded : ∀ (i : Nat) u, p.threads[i]? = some u →
    ∀ g, u.succeeded = some g → g ≤ p.shared.swap.current.generation
  distinct : ∀ (i j : Nat) u v g, p.threads[i]? = some u → p.threads[j]? = some v →
    u.succeeded = some g → v.succeeded = some g → i = j
  counted : p.shared.swap.current.generation = first + okCalls p

namespace Serial

variable {first : Nat} {p : Users γ ω}

theorem spawn (h : Serial first p) {u : User γ ω} (hprepared : u.Prepared p.shared.swap)
    (hnone : u.succeeded = none)
    : Serial first { p with threads := p.threads ++ [u] } := by
  have hold : ∀ (i : Nat) v g, (p.threads ++ [u])[i]? = some v → v.succeeded = some g →
      p.threads[i]? = some v := by
    intro i v g hi hv
    rcases Pool.getElem?_concat_cases hi with rfl | hi
    . simp [hnone] at hv
    . assumption
  apply Serial.mk
  . exact h.chain
  . apply Pool.forall_concat hprepared h.prepared
  . intro i v hi g hv
    apply h.bounded i v (hold i v g hi hv) g hv
  . intro i j v w g hi hj hv hw
    apply h.distinct i j v w g (hold i v g hi hv) (hold j w g hj hw) hv hw
  . unfold okCalls
    rw [Pool.sum_spawn, hnone]
    apply h.counted

theorem kept (h : Serial first p) {i : Nat} {u u' : User γ ω} {reg : PluginRegistry γ ω}
    (hi : p.threads[i]? = some u) (hu : u.succeeded = none) (hswap : reg.swap = p.shared.swap)
    (hu' : u'.succeeded = none) (hprepared : u'.Prepared p.shared.swap)
    : Serial first { shared := reg, threads := p.threads.set i u' } := by
  have hold : ∀ (j : Nat) v g, (p.threads.set i u')[j]? = some v → v.succeeded = some g →
      p.threads[j]? = some v := by
    intro j v g hj hv
    rcases Pool.getElem?_set_cases hj with ⟨-, rfl⟩ | ⟨-, hj⟩
    . simp [hu'] at hv
    . assumption
  apply Serial.mk
  . dsimp
    rw [hswap]
    exact h.chain
  . dsimp
    rw [hswap]
    apply Pool.forall_set hprepared
    intro j v _ hj
    apply h.prepared j v hj
  . dsimp
    rw [hswap]
    intro j v hj g hv
    apply h.bounded j v (hold j v g hj hv) g hv
  . intro j k v w g hj hk hv hw
    apply h.distinct j k v w g (hold j v g hj hv) (hold k w g hk hw) hv hw
  . have hsum := Pool.sum_set (fun u : User γ ω => if u.succeeded.isSome then 1 else 0) p hi reg u'
    simp only [hu, hu', Option.isSome_none] at hsum
    have hcounted := h.counted
    unfold okCalls at *
    dsimp at *
    rw [hswap]
    omega

theorem published (h : Serial first p) {i : Nat} {u u' : User γ ω} {reg : PluginRegistry γ ω}
    {snap : PluginSnapshot γ ω} (hi : p.threads[i]? = some u) (hu : u.succeeded = none)
    (hswap : reg.swap = p.shared.swap.store snap) (hfollows : Follows p.shared.swap.current snap)
    (hu' : u'.succeeded = some snap.generation) (hprepared : u'.Prepared reg.swap)
    : Serial first { shared := reg, threads := p.threads.set i u' } := by
  have hnext := hfollows.1
  have hcurrent : reg.swap.current.generation = snap.generation := by
    rw [hswap, ArcSwap.current_store]
  have hbelow : ∀ (j : Nat) v, p.threads[j]? = some v → v.succeeded ≠ some snap.generation := by
    intro j v hj hv
    have := h.bounded j v hj _ hv
    omega
  apply Serial.mk
  . dsimp
    rw [hswap]
    apply ArcSwap.isChain_store h.chain hfollows
  . apply Pool.forall_set hprepared
    intro j v _ hj
    rw [hswap]
    apply (h.prepared j v hj).store
  . intro j v hj g hv
    dsimp
    rw [hcurrent]
    rcases Pool.getElem?_set_cases hj with ⟨-, rfl⟩ | ⟨-, hj⟩
    . rw [hu'] at hv
      cases hv
      omega
    . have := h.bounded j v hj g hv
      omega
  -- The new generation is above all that were handed out, so nobody else has it.
  . intro j k v w g hj hk hv hw
    rcases Pool.getElem?_set_cases hj with ⟨rfl, rfl⟩ | ⟨-, hj'⟩
    . rcases Pool.getElem?_set_cases hk with ⟨rfl, -⟩ | ⟨-, hk'⟩
      . rfl
      . rw [hu'] at hv
        cases hv
        exact absurd hw (hbelow k w hk')
    . rcases Pool.getElem?_set_cases hk with ⟨rfl, rfl⟩ | ⟨-, hk'⟩
      . rw [hu'] at hw
        cases hw
        exact absurd hv (hbelow j v hj')
      . apply h.distinct j k v w g hj' hk' hv hw
  . have hsum := Pool.sum_set (fun u : User γ ω => if u.succeeded.isSome then 1 else 0) p hi reg u'
    simp only [hu, hu', Option.isSome_none, Option.isSome_some, if_true] at hsum
    have hcounted := h.counted
    unfold okCalls at *
    dsimp at *
    rw [hcurrent]
    omega

theorem step {q : Users γ ω} {e : Pool.Event Arrival (ReloadInput γ ω)} (h : Serial first p)
    (hstep : PluginRegistry.step p e = some q)
    : Serial first q := by
  rcases Pool.step_cases _ _ hstep with ⟨o, rfl, rfl⟩ | ⟨i, x, u, reg, u', rfl, hi, hact, rfl⟩
  . cases o with
    | reload cfg => apply h.spawn (u := .reload (.start cfg)) trivial rfl
    | kv state op nowMs => apply h.spawn (u := .kv state op nowMs) trivial rfl
  . have hprepared := h.prepared i u hi
    rcases User.act_cases hact with ⟨hu, -, hkept | hpublished⟩
    . rcases hkept with ⟨hswap, hu', hkeep, -⟩
      apply h.kept hi hu hswap hu' (hkeep hprepared)
    . rcases hpublished with ⟨cfg, attempts, snap, rfl, hswap, rfl⟩
      have hfollows : Follows p.shared.swap.current snap := by
        apply ReloadCall.follows_of_prepared cfg attempts hprepared
      apply h.published hi hu hswap hfollows
      . rfl
      . trivial

end Serial

structure Unambiguous (p : Users γ ω) : Prop where
  published : ∀ snap ∈ p.shared.swap.history, Distinct snap
  ordered : ∀ (i : Nat) u, p.threads[i]? = some u → u.Ordered

def NamedOnce (e : Pool.Event Arrival (ReloadInput γ ω)) : Prop :=
  ∀ cfg, e = .spawn (.reload cfg) → cfg.order.Nodup

theorem Unambiguous.step {p q : Users γ ω} {e : Pool.Event Arrival (ReloadInput γ ω)}
    (h : Unambiguous p) (hnamed : NamedOnce e) (hstep : PluginRegistry.step p e = some q)
    : Unambiguous q := by
  rcases Pool.step_cases _ _ hstep with ⟨o, rfl, rfl⟩ | ⟨i, x, u, reg, u', rfl, hi, hact, rfl⟩
  . refine ⟨h.published, Pool.forall_concat ?_ h.ordered⟩
    cases o with
    | reload cfg => apply hnamed cfg rfl
    | kv state op nowMs => trivial
  . have hordered := h.ordered i u hi
    rcases User.act_cases hact with ⟨-, -, ⟨hswap, -, -, hkeep⟩ | hpublished⟩
    . refine ⟨?_, Pool.forall_set (hkeep hordered) fun j v _ => h.ordered j v⟩
      dsimp
      rw [hswap]
      exact h.published
    . rcases hpublished with ⟨cfg, attempts, snap, rfl, hswap, rfl⟩
      refine ⟨?_, Pool.forall_set trivial fun j v _ => h.ordered j v⟩
      dsimp
      rw [hswap, ArcSwap.history_store]
      intro other hother
      rw [List.mem_append, List.mem_singleton] at hother
      rcases hother with hother | rfl
      . apply h.published other hother
      . exact hordered.2

theorem state_eq_of_follows {a b : PluginSnapshot γ ω} (h : Follows a b) (ha : Distinct a)
    {prev plugin : RegisteredPlugin γ ω} (hprev : prev ∈ a.plugins) (hplugin : plugin ∈ b.plugins)
    (hname : prev.name = plugin.name)
    : plugin.state = prev.state := by
  apply h.2 plugin hplugin
  rw [← hname]
  apply stateOf_of_distinct ha hprev

def idle (snap : PluginSnapshot γ ω) (states : List HostState) : Users γ ω :=
  { shared := { swap := .new snap, states := states }, threads := [] }

def Returned (p : Users γ ω) (i : Nat) (result : Except ReloadError Nat) : Prop :=
  p.threads[i]? = some (.reload (.returned result))

def KvCall (p : Users γ ω) (e : Pool.Event Arrival (ReloadInput γ ω)) : Prop :=
  ∃ i x u, e = .step i x ∧ p.threads[i]? = some u ∧ u.isKv

section run

variable {snap0 : PluginSnapshot γ ω} {states : List HostState} {p : Users γ ω}
  {es : List (Pool.Event Arrival (ReloadInput γ ω))}

theorem serial_of_run (hrun : Machine.run step (idle snap0 states) es = some p)
    : Serial snap0.generation p := by
  apply Machine.inv_of_run_all (I := Serial snap0.generation) _ _ hrun
  . intro p e q h hstep
    apply h.step hstep
  . apply Serial.mk
    . apply List.isChain_singleton
    . simp [idle]
    . simp [idle]
    . simp [idle]
    . simp [idle, okCalls, ArcSwap.new]

theorem unambiguous_of_run (hrun : Machine.run step (idle snap0 states) es = some p)
    (hfirst : Distinct snap0) (hnamed : ∀ e ∈ es, NamedOnce e)
    : Unambiguous p := by
  have hok : Machine.Guarded step (fun _ e => NamedOnce e) (idle snap0 states) es := by
    apply Machine.guarded_of_forall hnamed
  apply Machine.inv_of_run (I := Unambiguous) _ _ hok hrun
  . intro p e q h hnamed hstep
    apply h.step hnamed hstep
  . apply Unambiguous.mk
    . simpa [idle, ArcSwap.new, ArcSwap.history] using hfirst
    . simp [idle]

theorem swap_kept_of_error (hrun : Machine.run step (idle snap0 states) es = some p) {i : Nat}
    {e : ReloadError} (hi : Returned p i (.error e))
    : Machine.Along step
        (fun p e q => ∀ x, e = .step i x → q.shared.swap = p.shared.swap) (idle snap0 states) es := by
  apply Pool.along_of_not_committed (C := fun u => u.succeeded.isSome)
    (K := fun reg reg' : PluginRegistry γ ω => reg'.swap = reg.swap) _ _ hrun hi
  . simp [User.succeeded, ReloadCall.succeeded]
  . intro reg u x reg' u' hu hact
    rw [(User.act_cases hact).1] at hu
    cases hu
  . intro reg u x reg' u' hact
    rcases User.act_cases hact with ⟨-, -, ⟨hswap, -⟩ | ⟨cfg, attempts, snap, -, -, rfl⟩⟩
    . right
      assumption
    . left
      rfl

theorem states_kept (p : Users γ ω) (es : List (Pool.Event Arrival (ReloadInput γ ω)))
    : Machine.Along step
        (fun p e q => ¬KvCall p e → p.shared.states <+: q.shared.states) p es := by
  apply Machine.along_of_step
  intro p e q hstep hkv
  rcases Pool.step_cases _ _ hstep with ⟨o, rfl, rfl⟩ | ⟨i, x, u, reg, u', rfl, hi, hact, rfl⟩
  . apply List.prefix_refl
  . apply (User.act_cases hact).2.1
    rw [Bool.eq_false_iff]
    intro hu
    exact hkv ⟨i, x, u, rfl, hi, hu⟩

theorem reload_serializable (hrun : Machine.run step (idle snap0 states) es = some p)
    : (∀ i j g, Returned p i (.ok g) → Returned p j (.ok g) → i = j)
      ∧ p.shared.swap.current.generation = snap0.generation + okCalls p
      ∧ (∀ i e, Returned p i (.error e) → Machine.Along step
          (fun p e q => ∀ x, e = .step i x → q.shared.swap = p.shared.swap) (idle snap0 states) es)
      ∧ (∀ n a b, p.shared.swap.history[n]? = some a → p.shared.swap.history[n + 1]? = some b →
          Follows a b)
      ∧ (Distinct snap0 → (∀ e ∈ es, NamedOnce e) →
          ∀ n a b, p.shared.swap.history[n]? = some a → p.shared.swap.history[n + 1]? = some b →
          ∀ prev ∈ a.plugins, ∀ plugin ∈ b.plugins, prev.name = plugin.name →
            plugin.state = prev.state)
      ∧ Machine.Along step
          (fun p e q => ¬KvCall p e → p.shared.states <+: q.shared.states) (idle snap0 states) es := by
  have hserial := serial_of_run hrun
  refine ⟨?_, hserial.counted, ?_, ?_, ?_, ?_⟩
  . intro i j g hi hj
    apply hserial.distinct i j _ _ g hi hj rfl rfl
  . intro i e hi
    apply swap_kept_of_error hrun hi
  . intro n a b ha hb
    apply ArcSwap.consecutive hserial.chain ha hb
  . intro hfirst hnamed n a b ha hb prev hprev plugin hplugin hname
    have hpublished := (unambiguous_of_run hrun hfirst hnamed).published
    apply state_eq_of_follows (ArcSwap.consecutive hserial.chain ha hb) _ hprev hplugin hname
    apply hpublished a (List.mem_of_getElem? ha)
  . apply states_kept

end run

def authPlugin : BuildEnv Unit Unit where
  entries := .ok [some { stem := some "auth", extension := some "wasm", isFile := some true }]
  read _ := .ok []
  compile _ := .ok {
    instantiate := fun _ hd outside => (.ok ((), hd), outside)
    onPhase := fun _ _ guest hd outside => (.ok 0, guest, hd, outside)
  }
  validateModule _ := .ok true
  instantiatePre _ := .ok ()

def contendedRun : List (Pool.Event Arrival (ReloadInput Unit Unit)) :=
  [.spawn (.reload {}), .spawn (.reload {}), .step 0 .run, .step 1 .run, .step 0 (.built authPlugin),
    .step 1 (.built authPlugin), .step 1 .run, .step 0 .run, .step 0 .run, .step 0 (.built authPlugin),
    .step 0 .run]

def published (p : Users Unit Unit) : List (Nat × List (String × Nat)) :=
  p.shared.swap.history.map fun a => (a.generation, a.plugins.map fun plugin => (plugin.name, plugin.state))

theorem contendedRun_serial
    : ∃ p, Machine.run step (idle { generation := 0, plugins := [] } []) contendedRun = some p
      ∧ published p = [(0, []), (1, [("auth", 1)]), (2, [("auth", 1)])]
      ∧ okCalls p = 2 ∧ p.shared.swap.current.generation = 2 := by
  have hrun : (Machine.run step (idle { generation := 0, plugins := [] } []) contendedRun).map
      (fun p => (published p, okCalls p)) = some ([(0, []), (1, [("auth", 1)]), (2, [("auth", 1)])], 2) := by
    decide +kernel
  rcases Option.map_eq_some_iff.mp hrun with ⟨p, hp, hsummary⟩
  rw [Prod.mk.injEq] at hsummary
  refine ⟨p, hp, hsummary.1, hsummary.2, ?_⟩
  rw [(reload_serializable hp).2.1, hsummary.2]

end PluginRegistry

end OpenRusty
