import OpenRusty.Server.Reload.Pinning

/-!
This module contains what the published runtime is built from. A reload publishes its configuration
alone, an application of an Ingress pair its composition with the configuration of the start; the one
that stores last wins.
-/

namespace OpenRusty

namespace ControlPlane

variable {γ ω : Type} {codec : Codec}

def arrival? (e : Pool.Event Arrival (Input γ ω)) : Option Arrival :=
  match e with
  | .spawn a => some a
  | .step _ _ => none

def arrivals (es : List (Pool.Event Arrival (Input γ ω))) : List Arrival := es.filterMap arrival?

section

variable (codec : Codec) (base : GatewayConfig) (es : List (Pool.Event Arrival (Input γ ω)))

/-- The task `i` of the run is about `cfg`: the file as the task has loaded it, the configuration that it was
called with, or the composition of its pair with the configuration of the start. -/
inductive Given (i : Nat) (cfg : GatewayConfig) : Prop where
  | file (env : LoadEnv) (harrival : (arrivals es)[i]? = some .reload) (hloaded : .step i (.loaded env) ∈ es)
      (hcfg : loadConfig env = .ok cfg)
  | memory (harrival : (arrivals es)[i]? = some (.applyConfig cfg))
  | pair (pair : IngressPair) (harrival : (arrivals es)[i]? = some (.handOver pair))
      (hcompose : base.composePair codec.decode pair = some cfg)

def Readied (i : Nat) (cfg resolved : GatewayConfig) : Prop :=
  Given codec base es i cfg ∧ ∃ lookupHost, .step i (.lookup lookupHost) ∈ es ∧ resolved = cfg.resolve lookupHost

def Publishes (i : Nat) (pub : Publication) : Prop :=
  ∃ cfg resolved generation, Readied codec base es i cfg resolved
    ∧ pub.runtime = .fromConfig resolved.toConfig generation

end

section mono

variable {base : GatewayConfig} {es : List (Pool.Event Arrival (Input γ ω))} {i : Nat}
  (more : List (Pool.Event Arrival (Input γ ω)))

theorem arrivals_append : arrivals (es ++ more) = arrivals es ++ arrivals more := by
  apply List.filterMap_append

theorem arrivals_mono {a : Arrival} (h : (arrivals es)[i]? = some a) : (arrivals (es ++ more))[i]? = some a := by
  rw [arrivals_append, List.getElem?_append_left]
  . assumption
  . apply (List.getElem?_eq_some_iff.mp h).1

theorem Given.mono {cfg : GatewayConfig} (h : Given codec base es i cfg)
    : Given codec base (es ++ more) i cfg := by
  cases h with
  | file env harrival hloaded hcfg =>
    exact .file env (arrivals_mono more harrival) (List.mem_append_left more hloaded) hcfg
  | memory harrival => exact .memory (arrivals_mono more harrival)
  | pair pair harrival hcompose => exact .pair pair (arrivals_mono more harrival) hcompose

theorem Readied.mono {cfg resolved : GatewayConfig} (h : Readied codec base es i cfg resolved)
    : Readied codec base (es ++ more) i cfg resolved := by
  rcases h with ⟨hgiven, lookupHost, hlookup, hresolved⟩
  exact ⟨hgiven.mono more, lookupHost, List.mem_append_left more hlookup, hresolved⟩

theorem Publishes.mono {pub : Publication} (h : Publishes codec base es i pub)
    : Publishes codec base (es ++ more) i pub := by
  rcases h with ⟨cfg, resolved, generation, hreadied, hruntime⟩
  exact ⟨cfg, resolved, generation, hreadied.mono more, hruntime⟩

end mono

namespace Reload

def stored (r : Reload γ ω) : Bool :=
  match r with
  | .publish _ (.register _) => false
  | .publish _ _ => true
  | .done (.ok _) => true
  | _ => false

theorem stored_of_preparing {r : Reload γ ω} (h : r.preparing = true) : r.stored = false := by
  rcases preparing_cases h with rfl | ⟨file, cfg, rfl⟩ | ⟨file, loaded, resolved, rfl⟩ <;> rfl

theorem stored_of_abandoned {r : Reload γ ω} (h : r.abandoned = true) : r.stored = false := by
  rcases abandoned_cases h with ⟨e, rfl⟩ | rfl <;> rfl

def Knows (codec : Codec) (base : GatewayConfig) (es : List (Pool.Event Arrival (Input γ ω))) (i : Nat)
    (r : Reload γ ω)
    : Prop :=
  match r with
  | .start none => (arrivals es)[i]? = some .reload
  | .start (some cfg) => Given codec base es i cfg
  | .load => (arrivals es)[i]? = some .reload
  | .resolve _ cfg => Given codec base es i cfg
  | .tls _ loaded resolved => Readied codec base es i loaded resolved
  | .plugins _ loaded resolved _ => Readied codec base es i loaded resolved
  | .publish job _ => Readied codec base es i job.loaded job.resolved
  | .done _ => True
  | .dropped => True

variable {base : GatewayConfig} {es : List (Pool.Event Arrival (Input γ ω))} {i : Nat}
  {s s' : ControlPlane γ ω} {r r' : Reload γ ω}

theorem Knows.mono (more : List (Pool.Event Arrival (Input γ ω))) (h : r.Knows codec base es i)
    : r.Knows codec base (es ++ more) i := by
  unfold Knows at *
  split at h
  . apply arrivals_mono more h
  . apply h.mono
  . apply arrivals_mono more h
  . apply h.mono
  . apply h.mono
  . apply h.mono
  . apply h.mono
  . trivial
  . trivial

theorem knows_actPlugins (file : Bool) {loaded resolved : GatewayConfig} (registry : PluginRegistry γ ω)
    (call : PluginRegistry.ReloadCall γ ω) (h : Readied codec base es i loaded resolved)
    : (actPlugins s file loaded resolved registry call).2.Knows codec base es i := by
  unfold actPlugins
  split
  . exact h
  . trivial
  . trivial
  . exact h

theorem knows_actPublish (job : Job) (next : PublishStep)
    (h : Readied codec base es i job.loaded job.resolved)
    : (actPublish codec s job next).2.Knows codec base es i := by
  cases next with
  | register rest =>
    cases rest with
    | nil => exact h
    | cons uc rest => exact h
  | dynamic => exact h
  | loadRoutes => exact h
  | storeRoutes routes => exact h
  | token => exact h
  | report => trivial

theorem knows_of_act {x : Input γ ω} (hr : r.Knows codec base es i) (hx : .step i x ∈ es)
    (h : r.act codec s x = some (s', r'))
    : r'.Knows codec base es i := by
  unfold act at h
  split at h
  . next cfg =>
    split at h
    . cases h
      trivial
    . cases h
      cases cfg with
      | none => exact hr
      | some cfg => exact hr
  . next env =>
    split at h
    . next cfg hcfg =>
      cases h
      exact .file env hr hx hcfg
    . cases h
      trivial
  . cases h
    trivial
  . cases h
    trivial
  . next file cfg lookupHost =>
    cases h
    exact ⟨hr, lookupHost, hx, rfl⟩
  . cases h
    trivial
  . split at h
    . cases h
      exact hr
    . cases h
      trivial
  . next file loaded resolved call y =>
    rw [Option.map_eq_some_iff] at h
    rcases h with ⟨z, -, hz⟩
    have hknows := knows_actPlugins (s := s) file z.1 z.2 hr
    rw [hz] at hknows
    assumption
  . next job next =>
    have hknows := knows_actPublish (s := s) job next hr
    rw [Option.some.inj h] at hknows
    assumption
  . cases h

/-- The only step that changes the runtime is the store of what the call has readied. -/
theorem Moves.runtime (h : Moves codec s r s' r')
    : s'.staticConfig = s.staticConfig
      ∧ (Task.storing? (.reload r) = none ∧ s'.runtime = s.runtime ∧ r'.stored = r.stored
        ∨ ∃ job, r = .publish job (.register [])
          ∧ s' = s.storeRuntime job.resolved.toConfig job.generation (.reload job.loaded)
          ∧ r'.stored = true) := by
  cases h with
  | reject hgate => exact ⟨rfl, .inl ⟨rfl, rfl, rfl⟩⟩
  | acquire hgate hr' => exact ⟨rfl, .inl ⟨rfl, rfl, stored_of_preparing hr'⟩⟩
  | prepare hr₀ hr' =>
    rw [stored_of_preparing hr₀, stored_of_preparing hr']
    refine ⟨rfl, .inl ⟨?_, rfl, rfl⟩⟩
    rcases preparing_cases hr₀ with rfl | ⟨file, cfg, rfl⟩ | ⟨file, loaded, resolved, rfl⟩ <;> rfl
  | call => exact ⟨rfl, .inl ⟨rfl, rfl, rfl⟩⟩
  | abandon hr₀ hr' =>
    rw [stored_of_preparing hr₀, stored_of_abandoned hr']
    refine ⟨rfl, .inl ⟨?_, rfl, rfl⟩⟩
    rcases preparing_cases hr₀ with rfl | ⟨file, cfg, rfl⟩ | ⟨file, loaded, resolved, rfl⟩ <;> rfl
  | build hact hc' => exact ⟨rfl, .inl ⟨rfl, rfl, rfl⟩⟩
  | giveUp hact hc' hr' => exact ⟨rfl, .inl ⟨rfl, rfl, stored_of_abandoned hr'⟩⟩
  | publishPlugins hact => exact ⟨rfl, .inl ⟨rfl, rfl, rfl⟩⟩
  | register => exact ⟨rfl, .inl ⟨rfl, rfl, rfl⟩⟩
  | @store job => exact ⟨rfl, .inr ⟨job, rfl, rfl, rfl⟩⟩
  | @dynamic job =>
    have hframe := s.applyDynamic_frame job.resolved
    exact ⟨hframe.2.2.2, .inl ⟨rfl, hframe.2.1, rfl⟩⟩
  | loadRoutes => exact ⟨rfl, .inl ⟨rfl, rfl, rfl⟩⟩
  | storeRoutes =>
    split
    . exact ⟨rfl, .inl ⟨rfl, rfl, rfl⟩⟩
    . exact ⟨rfl, .inl ⟨rfl, rfl, rfl⟩⟩
  | token => exact ⟨rfl, .inl ⟨rfl, rfl, rfl⟩⟩
  | report => exact ⟨rfl, .inl ⟨rfl, rfl, rfl⟩⟩

end Reload

namespace Apply

def stored (a : Apply) : Bool :=
  match a with
  | .done (some _) => true
  | _ => false

def Knows (codec : Codec) (base : GatewayConfig) (es : List (Pool.Event Arrival (Input γ ω))) (i : Nat)
    (a : Apply)
    : Prop :=
  match a with
  | .start pair => (arrivals es)[i]? = some (.handOver pair)
  | .resolve _ cfg => Given codec base es i cfg
  | .tls _ resolved => ∃ cfg, Readied codec base es i cfg resolved
  | .readGeneration _ resolved => ∃ cfg, Readied codec base es i cfg resolved
  | .register _ resolved _ _ => ∃ cfg, Readied codec base es i cfg resolved
  | .done _ => True

variable {es : List (Pool.Event Arrival (Input γ ω))} {i : Nat} {s s' : ControlPlane γ ω} {a a' : Apply}

theorem Knows.mono {base : GatewayConfig} (more : List (Pool.Event Arrival (Input γ ω)))
    (h : a.Knows codec base es i)
    : a.Knows codec base (es ++ more) i := by
  unfold Knows at *
  split at h
  . apply arrivals_mono more h
  . apply h.mono
  . exact h.imp fun cfg hcfg => hcfg.mono more
  . exact h.imp fun cfg hcfg => hcfg.mono more
  . exact h.imp fun cfg hcfg => hcfg.mono more
  . trivial

theorem knows_of_act {x : Input γ ω} (ha : a.Knows codec s.staticConfig es i) (hx : .step i x ∈ es)
    (h : a.act codec s x = some (s', a'))
    : a'.Knows codec s.staticConfig es i := by
  unfold act at h
  split at h
  . next pair =>
    split at h
    . cases h
    . split at h
      . cases h
        trivial
      . next cfg hcompose =>
        cases h
        exact .pair pair ha hcompose
  . next pair cfg lookupHost =>
    cases h
    exact ⟨cfg, ha, lookupHost, hx, rfl⟩
  . split at h
    . cases h
      exact ha
    . cases h
      trivial
  . cases h
    exact ha
  . cases h
    exact ha
  . cases h
    trivial
  . cases h

theorem Moves.runtime (h : Moves codec s a s' a')
    : Task.storing? (.apply a : Task γ ω) = none ∧ s'.runtime = s.runtime ∧ a'.stored = a.stored
      ∨ ∃ pair cfg generation, a = .register pair cfg generation []
        ∧ s'.runtime = (s.storeRuntime cfg.toConfig generation (.apply pair)).runtime
        ∧ a'.stored = true := by
  cases h with
  | @store pair cfg generation =>
    right
    exact ⟨pair, cfg, generation, rfl, rfl, rfl⟩
  | _ => exact .inl ⟨rfl, rfl, rfl⟩

end Apply

namespace Task

def stored (t : Task γ ω) : Bool :=
  match t with
  | .reload r => r.stored
  | .apply a => a.stored
  | .request _ => false

def Knows (codec : Codec) (base : GatewayConfig) (es : List (Pool.Event Arrival (Input γ ω))) (i : Nat)
    (t : Task γ ω)
    : Prop :=
  match t with
  | .reload r => r.Knows codec base es i
  | .apply a => a.Knows codec base es i
  | .request _ => True

variable {es : List (Pool.Event Arrival (Input γ ω))} {i : Nat} {s s' : ControlPlane γ ω} {t t' : Task γ ω}

theorem Knows.mono {base : GatewayConfig} (more : List (Pool.Event Arrival (Input γ ω)))
    (h : t.Knows codec base es i)
    : t.Knows codec base (es ++ more) i := by
  cases t with
  | reload r => exact Reload.Knows.mono more h
  | apply a => exact Apply.Knows.mono more h
  | request q => trivial

theorem knows_start {base : GatewayConfig} {o : Arrival} (h : (arrivals es)[i]? = some o)
    : (start o : Task γ ω).Knows codec base es i := by
  cases o with
  | reload => exact h
  | applyConfig cfg => exact .memory h
  | handOver pair => exact h
  | request => trivial

theorem knows_of_act {x : Input γ ω} (ht : t.Knows codec s.staticConfig es i) (hx : .step i x ∈ es)
    (h : t.act codec s x = some (s', t'))
    : t'.Knows codec s.staticConfig es i := by
  cases t with
  | reload r =>
    rcases Option.map_eq_some_iff.mp h with ⟨y, hact, heq⟩
    cases heq
    apply Reload.knows_of_act ht hx hact
  | apply a =>
    rcases Option.map_eq_some_iff.mp h with ⟨y, hact, heq⟩
    cases heq
    apply Apply.knows_of_act ht hx hact
  | request q =>
    rcases Option.map_eq_some_iff.mp h with ⟨y, -, heq⟩
    cases heq
    trivial

theorem runtime_of_act {x : Input γ ω} (h : t.act codec s x = some (s', t'))
    (ht : t.Knows codec s.staticConfig es i)
    : s'.staticConfig = s.staticConfig
      ∧ (t.storing? = none ∧ s'.runtime = s.runtime ∧ t'.stored = t.stored
        ∨ ∃ pub, t.storing?.isSome = true ∧ s'.runtime = s.runtime.store pub
          ∧ Publishes codec s.staticConfig es i pub ∧ t.stored = false ∧ t'.stored = true) := by
  cases t with
  | reload r =>
    rcases act_reload h with ⟨r', rfl, hmoves⟩
    rcases hmoves.runtime with ⟨hstatic, hquiet | ⟨job, rfl, rfl, hstored⟩⟩
    . exact ⟨hstatic, .inl hquiet⟩
    . exact ⟨rfl, .inr ⟨_, rfl, rfl, ⟨job.loaded, job.resolved, job.generation, ht, rfl⟩, rfl, hstored⟩⟩
  | apply a =>
    rcases act_apply h with ⟨a', rfl, hmoves⟩
    refine ⟨hmoves.frame.2.2, ?_⟩
    rcases hmoves.runtime with hquiet | ⟨pair, resolved, generation, rfl, hruntime, hstored⟩
    . exact .inl hquiet
    . right
      rcases ht with ⟨cfg, hreadied⟩
      exact ⟨_, rfl, hruntime, ⟨cfg, resolved, generation, hreadied, rfl⟩, rfl, hstored⟩
  | request q =>
    rcases act_request h with ⟨rfl, ⟨-, rfl⟩ | ⟨snap, -, rfl⟩⟩
    . exact ⟨rfl, .inl ⟨rfl, rfl, rfl⟩⟩
    . exact ⟨rfl, .inl ⟨rfl, rfl, rfl⟩⟩

theorem prepared_of_preparing {swap : ArcSwap (PluginSnapshot γ ω)} {r : Reload γ ω}
    (h : r.preparing = true)
    : Prepared swap (.reload r) := by
  rcases Reload.preparing_cases h with rfl | ⟨file, cfg, rfl⟩ | ⟨file, loaded, resolved, rfl⟩ <;> trivial

theorem prepared_of_abandoned {swap : ArcSwap (PluginSnapshot γ ω)} {r : Reload γ ω}
    (h : r.abandoned = true)
    : Prepared swap (.reload r) := by
  rcases Reload.abandoned_cases h with ⟨e, rfl⟩ | rfl <;> trivial

theorem prepared_of_act {x : Input γ ω} (h : t.act codec s x = some (s', t'))
    (ht : t.Prepared s.registry.swap)
    : t'.Prepared s'.registry.swap := by
  cases t with
  | reload r =>
    rcases act_reload h with ⟨r', rfl, hmoves⟩
    cases hmoves with
    | build hact hc' =>
      rcases PluginRegistry.ReloadCall.act_cases hact with ⟨-, -, ⟨hswap, -, hkeep, -⟩ | hcases⟩
      . unfold Prepared
        rw [hswap]
        apply hkeep ht
      . rcases hcases with ⟨cfg, attempts, snap, -, -, rfl⟩
        cases hc'
    | acquire hgate hr' => apply prepared_of_preparing hr'
    | prepare hr hr' => apply prepared_of_preparing hr'
    | abandon hr hr' => apply prepared_of_abandoned hr'
    | giveUp hact hc' hr' => apply prepared_of_abandoned hr'
    | _ => trivial
  | apply a =>
    rcases act_apply h with ⟨a', rfl, hmoves⟩
    trivial
  | request q =>
    rcases act_request h with ⟨rfl, ⟨-, rfl⟩ | ⟨snap, -, rfl⟩⟩
    . trivial
    . trivial

end Task

def storesAt (p : Tasks γ ω) (e : Pool.Event Arrival (Input γ ω)) : List Nat :=
  match e with
  | .spawn _ => []
  | .step i _ => if (p.threads[i]?.bind Task.storing?).isSome then [i] else []

def stores (codec : Codec) (p : Tasks γ ω) (es : List (Pool.Event Arrival (Input γ ω))) : List Nat :=
  match es with
  | [] => []
  | e :: es => storesAt p e ++ (step codec p e).elim [] fun q => stores codec q es

structure Told (codec : Codec) (base : GatewayConfig) (start : Publication)
    (es : List (Pool.Event Arrival (Input γ ω))) (order : List Nat) (p : Tasks γ ω)
    : Prop where
  static : p.shared.staticConfig = base
  length : p.threads.length = (arrivals es).length
  knows : ∀ (i : Nat) t, p.threads[i]? = some t → t.Knows codec base es i
  mem : ∀ (i : Nat), i ∈ order ↔ ∃ t, p.threads[i]? = some t ∧ t.stored = true
  nodup : order.Nodup
  published : ∃ pubs, p.shared.runtime.history = start :: pubs
    ∧ List.Forall₂ (Publishes codec base es) order pubs

namespace Told

variable {base : GatewayConfig} {start : Publication} {es : List (Pool.Event Arrival (Input γ ω))}
  {order : List Nat} {p q : Tasks γ ω}

theorem published_mono (h : Told codec base start es order p) (more : List (Pool.Event Arrival (Input γ ω)))
    : ∃ pubs, p.shared.runtime.history = start :: pubs
      ∧ List.Forall₂ (Publishes codec base (es ++ more)) order pubs := by
  rcases h.published with ⟨pubs, hhistory, hpubs⟩
  exact ⟨pubs, hhistory, hpubs.imp fun i pub hpub => hpub.mono more⟩

theorem spawn (h : Told codec base start es order p) (o : Arrival)
    : Told codec base start (es ++ [.spawn o]) order { p with threads := p.threads ++ [Task.start o] } := by
  have harrivals : arrivals (es ++ [.spawn o]) = arrivals es ++ [o] := by
    rw [arrivals_append]
    rfl
  refine ⟨h.static, ?_, ?_, ?_, h.nodup, h.published_mono _⟩
  . rw [harrivals, List.length_append, List.length_append, h.length]
    rfl
  . intro i t hi
    rcases Pool.getElem?_concat_eq_some.mp hi with hold | ⟨hnew, rfl⟩
    . apply (h.knows i t hold).mono
    . apply Task.knows_start
      rw [harrivals, hnew, h.length, List.getElem?_concat_length]
  . intro i
    rw [h.mem i, Pool.exists_concat]
    cases o <;> simp [Task.start, Task.stored, Reload.stored, Apply.stored]

theorem act (h : Told codec base start es order p) {i : Nat} {x : Input γ ω} {t t' : Task γ ω}
    {s : ControlPlane γ ω} (hi : p.threads[i]? = some t) (hact : t.act codec p.shared x = some (s, t'))
    : Told codec base start (es ++ [.step i x]) (order ++ storesAt p (.step i x))
        { shared := s, threads := p.threads.set i t' } := by
  have hknown := (h.knows i t hi).mono [.step i x]
  have hstatic := h.static
  subst hstatic
  have hlast : .step i x ∈ es ++ [.step i x] := List.mem_concat_self
  have hknows := Task.knows_of_act hknown hlast hact
  have harrivals : arrivals (es ++ [.step i x]) = arrivals es := by
    rw [arrivals_append]
    apply List.append_nil
  have hlength : (p.threads.set i t').length = (arrivals (es ++ [.step i x])).length := by
    rw [harrivals, List.length_set, h.length]
  have hall (j : Nat) (u) (hj : (p.threads.set i t')[j]? = some u)
      : u.Knows codec p.shared.staticConfig (es ++ [.step i x]) j := by
    rcases Pool.getElem?_set_cases hj with ⟨rfl, rfl⟩ | ⟨-, hold⟩
    . exact hknows
    . apply (h.knows j u hold).mono
  have hbefore : i ∈ order ↔ t.stored = true := by
    rw [h.mem i, hi]
    simp
  -- At most one runtime is stored in a step, and its task has stored none before.
  rcases Task.runtime_of_act hact hknown
    with ⟨hstatic, ⟨hstoring, hruntime, hstored⟩ | ⟨pub, hstoring, hruntime, hpub, hstored, hstored'⟩⟩
  . have hnone : storesAt p (.step i x) = [] := by
      simp [storesAt, hi, hstoring]
    rw [hnone, List.append_nil]
    refine ⟨hstatic, hlength, hall, ?_, h.nodup, ?_⟩
    . intro j
      rw [Pool.exists_set hi, hstored, h.mem j]
      by_cases hj : j = i
      . subst hj
        simp [hi]
      . simp [hj]
    . rw [hruntime]
      apply h.published_mono
  . have hone : storesAt p (.step i x) = [i] := by
      simp [storesAt, hi, hstoring]
    rw [hone]
    refine ⟨hstatic, hlength, hall, ?_, ?_, ?_⟩
    . intro j
      rw [Pool.exists_set hi, List.mem_append, List.mem_singleton, h.mem j]
      by_cases hj : j = i
      . simp [hj, hstored']
      . simp [hj]
    . have hnew : i ∉ order := by
        rw [hbefore, hstored]
        exact Bool.false_ne_true
      apply List.nodup_append_comm.mp
      exact List.nodup_cons.mpr ⟨hnew, h.nodup⟩
    . rcases h.published_mono [.step i x] with ⟨pubs, hhistory, hpubs⟩
      refine ⟨pubs ++ [pub], ?_, ?_⟩
      . rw [hruntime, ArcSwap.history_store, hhistory, List.cons_append]
      . exact List.rel_append hpubs (.cons hpub .nil)

theorem step {e : Pool.Event Arrival (Input γ ω)} (h : Told codec base start es order p)
    (hstep : ControlPlane.step codec p e = some q)
    : Told codec base start (es ++ [e]) (order ++ storesAt p e) q := by
  rcases Pool.step_cases _ _ hstep with ⟨o, rfl, rfl⟩ | ⟨i, x, t, s, t', rfl, hi, hact, rfl⟩
  . rw [storesAt, List.append_nil]
    apply h.spawn
  . apply h.act hi hact

theorem current (h : Told codec base start es order p) {i : Nat} (hi : order.getLast? = some i)
    : Publishes codec base es i p.shared.runtime.current := by
  rcases h.published with ⟨pubs, hhistory, hpubs⟩
  rcases List.getLast?_eq_some_iff.mp hi with ⟨before, rfl⟩
  have hreverse : (start :: pubs).reverse = p.shared.runtime.current :: p.shared.runtime.older.reverse := by
    rw [← hhistory, ArcSwap.history, List.reverse_concat]
  rw [List.reverse_cons] at hreverse
  have hlast := List.forall₂_reverse_iff.mpr hpubs
  rw [List.reverse_concat] at hlast
  cases hpubs' : pubs.reverse with
  | nil =>
    rw [hpubs'] at hlast
    cases hlast
  | cons pub rest =>
    rw [hpubs'] at hlast hreverse
    rw [List.cons_append, List.cons.injEq] at hreverse
    rw [← hreverse.1]
    exact (List.forall₂_cons.mp hlast).1

theorem run {more : List (Pool.Event Arrival (Input γ ω))} (h : Told codec base start es order p)
    (hrun : Machine.run (ControlPlane.step codec) p more = some q)
    : Told codec base start (es ++ more) (order ++ stores codec p more) q := by
  induction more generalizing es order p with
  | nil =>
    cases hrun
    rw [stores, List.append_nil, List.append_nil]
    assumption
  | cons e more ih =>
    rcases (Machine.run_cons_eq_some _).mp hrun with ⟨r, hr, hrest⟩
    have hnext := ih (h.step hr) hrest
    rw [stores, hr, Option.elim_some]
    rw [List.append_assoc, List.append_assoc] at hnext
    assumption

end Told

/-- A runtime is only stored for the plugins that are current. -/
def StoresCurrent (p : Tasks γ ω) (e : Pool.Event Arrival (Input γ ω)) : Prop :=
  match e with
  | .spawn _ => True
  | .step i _ => ∀ t ∈ p.threads[i]?, ∀ g ∈ t.storing?, g = p.shared.generation

instance (p : Tasks γ ω) (e : Pool.Event Arrival (Input γ ω)) : Decidable (StoresCurrent p e) :=
  match e with
  | .spawn _ => isTrue trivial
  | .step i _ => inferInstanceAs (Decidable (∀ t ∈ p.threads[i]?, _))

def Ascends (a b : Publication) : Prop := a.runtime.generation ≤ b.runtime.generation

structure Ascending (p : Tasks γ ω) : Prop where
  prepared : ∀ (i : Nat) t, p.threads[i]? = some t → t.Prepared p.shared.registry.swap
  le : p.shared.runtime.current.runtime.generation ≤ p.shared.generation
  chain : p.shared.runtime.history.IsChain Ascends

theorem Task.Prepared.store {swap : ArcSwap (PluginSnapshot γ ω)} {t : Task γ ω} (h : t.Prepared swap)
    (snap : PluginSnapshot γ ω)
    : t.Prepared (swap.store snap) := by
  unfold Task.Prepared at *
  split at h
  . apply PluginRegistry.ReloadCall.Prepared.store h
  . trivial

theorem Ascending.step {p q : Tasks γ ω} {e : Pool.Event Arrival (Input γ ω)} (h : Ascending p)
    (hok : StoresCurrent p e) (hstep : ControlPlane.step codec p e = some q)
    : Ascending q := by
  rcases Pool.step_cases _ _ hstep with ⟨o, rfl, rfl⟩ | ⟨i, x, t, s, t', rfl, hi, hact, rfl⟩
  . refine ⟨Pool.forall_concat ?_ h.prepared, h.le, h.chain⟩
    cases o <;> trivial
  . have hown := Task.prepared_of_act hact (h.prepared i t hi)
    have hothers (hswap : s.registry.swap = p.shared.registry.swap)
        : ∀ (j : Nat) u, (p.threads.set i t')[j]? = some u → u.Prepared s.registry.swap := by
      apply Pool.forall_set hown
      intro j u _ hj
      rw [hswap]
      apply h.prepared j u hj
    cases Task.effect_of_act hact with
    | quiet hswap hruntime hpublished hpending hwaiting hpinned =>
      refine ⟨hothers hswap, ?_, ?_⟩
      . unfold generation
        rw [hswap, hruntime]
        exact h.le
      . rw [hruntime]
        exact h.chain
    | publish snap hswap hfollows hruntime hholds hfirst hpublished hpending hwaiting hpinned =>
      refine ⟨?_, ?_, ?_⟩
      . apply Pool.forall_set hown
        intro j u _ hj
        rw [hswap]
        apply (h.prepared j u hj).store
      . have hnext := (hfollows (h.prepared i t hi)).1
        have hle := h.le
        unfold generation at *
        rw [hswap, hruntime, ArcSwap.current_store]
        omega
      . rw [hruntime]
        exact h.chain
    | store pub hswap hruntime hstoring hpublished hpending hwaiting hpinned =>
      have hcurrent := hok t hi _ hstoring
      have hle := h.le
      refine ⟨hothers hswap, ?_, ?_⟩
      . unfold generation at *
        rw [hswap, hruntime, ArcSwap.current_store]
        omega
      . rw [hruntime]
        apply ArcSwap.isChain_store h.chain
        unfold Ascends
        omega
    | pinPlugins hs hpublished hpending hfirst hwaiting hpinned =>
      subst hs
      exact ⟨hothers rfl, h.le, h.chain⟩
    | pinRuntime generation hs hfirst hpublished hpending hno hwaiting hpinned =>
      subst hs
      exact ⟨hothers rfl, h.le, h.chain⟩

def Task.ended (t : Task γ ω) : Bool :=
  match t with
  | .reload (.done _) => true
  | .reload .dropped => true
  | .reload _ => false
  | .apply (.done _) => true
  | .apply _ => false
  | .request _ => true

def Task.succeeded (t : Task γ ω) : Bool :=
  match t with
  | .reload (.done (.ok _)) => true
  | .apply (.done (some _)) => true
  | _ => false

def AtRest (p : Tasks γ ω) : Prop := ∀ t ∈ p.threads, t.ended = true

theorem Task.stored_of_ended {t : Task γ ω} (h : t.ended = true) : t.stored = t.succeeded := by
  unfold ended at h
  split at h
  . next result =>
    cases result with
    | ok report => rfl
    | error e => rfl
  . rfl
  . cases h
  . next published =>
    cases published with
    | some pair => rfl
    | none => rfl
  . cases h
  . rfl

section run

variable {cfg : GatewayConfig} {registry : PluginRegistry γ ω} {p : Tasks γ ω}
  {es : List (Pool.Event Arrival (Input γ ω))}

theorem told_boot (codec : Codec) (cfg : GatewayConfig) (registry : PluginRegistry γ ω)
    : Told codec cfg ⟨.fromConfig cfg.toConfig registry.swap.current.generation, .boot⟩ [] []
        (boot codec cfg registry) := by
  apply Told.mk
  . rfl
  . rfl
  . simp [boot]
  . simp [boot]
  . exact .nil
  . exact ⟨[], rfl, .nil⟩

theorem told_of_run (hrun : Machine.run (step codec) (boot codec cfg registry) es = some p)
    : Told codec cfg ⟨.fromConfig cfg.toConfig registry.swap.current.generation, .boot⟩ es
        (stores codec (boot codec cfg registry) es) p := by
  have hboot := told_boot codec cfg registry
  exact hboot.run hrun

theorem ascending_of_run (hrun : Machine.run (step codec) (boot codec cfg registry) es = some p)
    (hok : Machine.Guarded (step codec) StoresCurrent (boot codec cfg registry) es)
    : Ascending p := by
  apply Machine.inv_of_run (I := Ascending) _ _ hok hrun
  . intro p e q h hok hstep
    apply h.step hok hstep
  . apply Ascending.mk
    . simp [boot]
    . apply Nat.le_refl
    . apply List.isChain_singleton

theorem published_runtime (hrun : Machine.run (step codec) (boot codec cfg registry) es = some p)
    : (Machine.Guarded (step codec) StoresCurrent (boot codec cfg registry) es →
        p.shared.runtime.history.IsChain Ascends)
      ∧ (∃ start pubs, p.shared.runtime.history = start :: pubs
        ∧ start.runtime = .fromConfig cfg.toConfig registry.swap.current.generation
        ∧ List.Forall₂ (Publishes codec cfg es) (stores codec (boot codec cfg registry) es) pubs)
      ∧ (∀ i, (stores codec (boot codec cfg registry) es).getLast? = some i →
        Publishes codec cfg es i p.shared.runtime.current)
      ∧ (stores codec (boot codec cfg registry) es).Nodup
      ∧ (AtRest p → ∀ i, i ∈ stores codec (boot codec cfg registry) es ↔
        ∃ t, p.threads[i]? = some t ∧ t.succeeded = true) := by
  have htold := told_of_run hrun
  rcases htold.published with ⟨pubs, hhistory, hpubs⟩
  refine ⟨fun hok => (ascending_of_run hrun hok).chain, ⟨_, pubs, hhistory, rfl, hpubs⟩, ?_, htold.nodup, ?_⟩
  . intro i hi
    apply htold.current hi
  . intro hrest i
    rw [htold.mem i]
    constructor
    . rintro ⟨t, ht, hstored⟩
      have hended := hrest t (List.mem_of_getElem? ht)
      exact ⟨t, ht, by rw [← Task.stored_of_ended hended, hstored]⟩
    . rintro ⟨t, ht, hsucceeded⟩
      have hended := hrest t (List.mem_of_getElem? ht)
      exact ⟨t, ht, by rw [Task.stored_of_ended hended, hsucceeded]⟩

end run

def newConfig : GatewayConfig := { bootConfig with
  upstreams := [{ name := "u", peers := [{ addr := { ip := .v4 0x0a000001, port := 80 } }] }]
  routes := [{ pathPrefix := "/", upstream := "u" }] }

def emptyPair : IngressPair := (Snapshot.replaceFromList [] "7", Snapshot.replaceFromList [] "7")

def reloadThenApply : List (Pool.Event Arrival (Input Unit Unit)) :=
  [.spawn (.applyConfig newConfig)] ++ publishing 0
    ++ [.step 0 .run, .step 0 .run, .step 0 .run, .step 0 .run, .step 0 .run, .step 0 .run]
    ++ [.spawn (.handOver emptyPair), .step 1 .run, .step 1 (.lookup fun _ => none),
      .step 1 (.tls fun _ => .ok ()), .step 1 .run, .step 1 .run]

def summary (p : Tasks Unit Unit) : Bool × List (Nat × List RouteConfig) :=
  (p.threads.all Task.ended, p.shared.runtime.history.map fun pub =>
    (pub.runtime.generation, pub.runtime.routes))

theorem reloadThenApply_eq
    : (Machine.run (step plainCodec) (boot plainCodec bootConfig noPlugins) reloadThenApply).map summary
      = some (true, [(0, []), (1, newConfig.routes), (1, [])]) := by
  decide +kernel

theorem atRest_of_summary {p : Tasks Unit Unit} (h : (summary p).1 = true) : AtRest p := by
  intro t ht
  apply List.all_eq_true.mp h t ht

theorem reloadThenApply_built
    : ∃ p, Machine.run (step plainCodec) (boot plainCodec bootConfig noPlugins) reloadThenApply = some p
      ∧ p.shared.runtime.history.IsChain Ascends
      ∧ Publishes plainCodec bootConfig reloadThenApply 1 p.shared.runtime.current := by
  rcases Option.map_eq_some_iff.mp reloadThenApply_eq with ⟨p, hp, -⟩
  rcases published_runtime hp with ⟨hchain, -, hcurrent, -⟩
  refine ⟨p, hp, hchain (by decide +kernel), ?_⟩
  apply hcurrent
  decide +kernel

theorem reloadThenApply_drops
    : ∃ p, Machine.run (step plainCodec) (boot plainCodec bootConfig noPlugins) reloadThenApply = some p
      ∧ AtRest p ∧ arrivals reloadThenApply = [.applyConfig newConfig, .handOver emptyPair]
      ∧ p.threads.map Task.succeeded = [true, true]
      ∧ p.shared.runtime.current.runtime.routes = []
      ∧ (newConfig.composePair plainCodec.decode emptyPair).map (fun cfg => cfg.routes)
        = some [{ pathPrefix := "/", upstream := "u" }] := by
  rcases Option.map_eq_some_iff.mp reloadThenApply_eq with ⟨p, hp, hsummary⟩
  have hsucceeded : (Machine.run (step plainCodec) (boot plainCodec bootConfig noPlugins) reloadThenApply).map
      (fun p => p.threads.map Task.succeeded) = some [true, true] := by
    decide +kernel
  rw [hp, Option.map_some, Option.some.injEq] at hsucceeded
  refine ⟨p, hp, ?_, rfl, hsucceeded, ?_, by decide +kernel⟩
  . apply atRest_of_summary
    rw [hsummary]
  . have hlast : (summary p).2.getLast?.map (fun x => x.2) = some [] := by
      rw [hsummary]
      rfl
    simpa [summary, ArcSwap.history] using hlast

end ControlPlane

end OpenRusty
