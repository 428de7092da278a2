import OpenRusty.Server.Admin.Plane

/-!
This module contains the proof of who reaches the handlers of the management plane. The token in force is
always that of the configuration at boot or of a file that was loaded since: configurations in memory and
Ingress pairs never change it. A handler is only entered behind a check against the token of that moment,
and only through a listener that the management routes are mounted on.
-/

namespace OpenRusty

namespace App

open AdminAuth ControlPlane

variable {γ ω : Type} {codec : Codec}

namespace Plane

def LoadedIn (es : List (Event γ ω)) (cfg : GatewayConfig) : Prop :=
  ∃ i env, Event.control (.step i (.loaded env)) ∈ es ∧ loadConfig env = .ok cfg

def TokenFrom (cfg : GatewayConfig) (es : List (Event γ ω)) (token : Option String) : Prop :=
  token = cfg.admin.effectiveToken ∨ ∃ loaded, LoadedIn es loaded ∧ token = loaded.admin.effectiveToken

theorem LoadedIn.append {es fs : List (Event γ ω)} {cfg : GatewayConfig} (h : LoadedIn es cfg)
    : LoadedIn (es ++ fs) cfg := by
  obtain ⟨i, env, hmem, hload⟩ := h
  exact ⟨i, env, List.mem_append_left fs hmem, hload⟩

theorem TokenFrom.append {cfg : GatewayConfig} {es fs : List (Event γ ω)} {token : Option String}
    (h : TokenFrom cfg es token)
    : TokenFrom cfg (es ++ fs) token := by
  rcases h with hboot | ⟨loaded, hloaded, htoken⟩
  . exact .inl hboot
  . exact .inr ⟨loaded, hloaded.append, htoken⟩

def Sourced (es : List (Event γ ω)) (r : Reload γ ω) : Prop :=
  match r with
  | .resolve file cfg => file = true → LoadedIn es cfg
  | .tls file loaded _ => file = true → LoadedIn es loaded
  | .plugins file loaded _ _ => file = true → LoadedIn es loaded
  | .publish job next =>
    (job.file = true → LoadedIn es job.loaded) ∧ (next = .token → job.file = true)
  | _ => True

theorem Sourced.append {es fs : List (Event γ ω)} {r : Reload γ ω} (h : Sourced es r) : Sourced (es ++ fs) r := by
  cases r with
  | resolve file cfg => exact fun hfile => (h hfile).append
  | tls file loaded resolved => exact fun hfile => (h hfile).append
  | plugins file loaded resolved call => exact fun hfile => (h hfile).append
  | publish job next => exact ⟨fun hfile => (h.1 hfile).append, h.2⟩
  | start cfg => trivial
  | load => trivial
  | done result => trivial
  | dropped => trivial

theorem sourced_actPlugins {es : List (Event γ ω)} (s : ControlPlane γ ω) {file : Bool} {loaded : GatewayConfig}
    (hfile : file = true → LoadedIn es loaded) (resolved : GatewayConfig) (registry : PluginRegistry γ ω)
    (call : PluginRegistry.ReloadCall γ ω)
    : Sourced es (Reload.actPlugins s file loaded resolved registry call).2
      ∧ (Reload.actPlugins s file loaded resolved registry call).1.adminToken = s.adminToken := by
  unfold Reload.actPlugins
  dsimp only
  split
  . exact ⟨⟨hfile, fun hnext => by cases hnext⟩, rfl⟩
  . exact ⟨trivial, rfl⟩
  . exact ⟨trivial, rfl⟩
  . exact ⟨hfile, rfl⟩

theorem sourced_actPublish (codec : Codec) {es : List (Event γ ω)} (s : ControlPlane γ ω) {job : Job} {next : PublishStep}
    (hr : Sourced es (.publish job next : Reload γ ω))
    : Sourced es (Reload.actPublish codec s job next).2 := by
  cases next with
  | register rest =>
    cases rest with
    | nil => exact ⟨hr.1, fun hnext => by cases hnext⟩
    | cons uc rest => exact ⟨hr.1, fun hnext => by cases hnext⟩
  | dynamic => exact ⟨hr.1, fun hnext => by cases hnext⟩
  | loadRoutes => exact ⟨hr.1, fun hnext => by cases hnext⟩
  | storeRoutes routes =>
    refine ⟨hr.1, ?_⟩
    intro hnext
    by_cases hfile : job.file = true
    . exact hfile
    . rw [if_neg hfile] at hnext
      cases hnext
  | token => exact ⟨hr.1, fun hnext => by cases hnext⟩
  | report => trivial

theorem token_actPublish (codec : Codec) {es : List (Event γ ω)} (s : ControlPlane γ ω) {job : Job} {next : PublishStep}
    (hr : Sourced es (.publish job next : Reload γ ω))
    : (Reload.actPublish codec s job next).1.adminToken.current = s.adminToken.current
      ∨ ∃ loaded, LoadedIn es loaded
        ∧ (Reload.actPublish codec s job next).1.adminToken.current = loaded.admin.effectiveToken := by
  cases next with
  | register rest =>
    left
    cases rest with
    | nil => rfl
    | cons uc rest => rfl
  | dynamic =>
    left
    unfold Reload.actPublish applyDynamic
    dsimp only
    split
    . rfl
    . rfl
  | loadRoutes => exact .inl rfl
  | storeRoutes routes => exact .inl rfl
  | token => exact .inr ⟨job.loaded, hr.1 (hr.2 rfl), ArcSwap.current_store _ _⟩
  | report => exact .inl rfl

theorem act_reload {es : List (Event γ ω)} {s s' : ControlPlane γ ω} {r r' : Reload γ ω}
    {x : ControlPlane.Input γ ω} {i : Nat}
    (hmem : Event.control (.step i x) ∈ es) (hr : Sourced es r) (h : r.act codec s x = some (s', r'))
    : Sourced es r' ∧ (s'.adminToken.current = s.adminToken.current
        ∨ ∃ loaded, LoadedIn es loaded ∧ s'.adminToken.current = loaded.admin.effectiveToken) := by
  unfold Reload.act at h
  split at h
  . next cfg =>
    split at h
    . cases h
      exact ⟨trivial, .inl rfl⟩
    . cases h
      refine ⟨?_, .inl rfl⟩
      cases cfg with
      | none => trivial
      | some cfg => exact fun hfile => by cases hfile
  . next env =>
    split at h
    . next cfg hload =>
      cases h
      exact ⟨fun _ => ⟨i, env, hmem, hload⟩, .inl rfl⟩
    . cases h
      exact ⟨trivial, .inl rfl⟩
  . cases h
    exact ⟨trivial, .inl rfl⟩
  . cases h
    exact ⟨trivial, .inl rfl⟩
  . cases h
    exact ⟨hr, .inl rfl⟩
  . cases h
    exact ⟨trivial, .inl rfl⟩
  . split at h
    . cases h
      exact ⟨hr, .inl rfl⟩
    . cases h
      exact ⟨trivial, .inl rfl⟩
  . next file loaded resolved call y =>
    obtain ⟨⟨registry, call'⟩, -, heq⟩ := Option.map_eq_some_iff.mp h
    obtain ⟨hsourced, htoken⟩ := sourced_actPlugins s hr resolved registry call'
    rw [heq] at hsourced htoken
    exact ⟨hsourced, .inl (congrArg ArcSwap.current htoken)⟩
  . next job next =>
    have hsourced := sourced_actPublish codec s hr
    have htoken := token_actPublish codec s hr
    rw [Option.some.inj h] at hsourced htoken
    exact ⟨hsourced, htoken⟩
  . cases h

theorem act_apply {s s' : ControlPlane γ ω} {a a' : Apply} {x : ControlPlane.Input γ ω}
    (h : a.act codec s x = some (s', a'))
    : s'.adminToken = s.adminToken := by
  unfold Apply.act at h
  split at h
  . split at h
    . cases h
    . split at h
      . cases h
        rfl
      . cases h
        rfl
  . cases h
    rfl
  . split at h
    . cases h
      rfl
    . cases h
      rfl
  . cases h
    rfl
  . cases h
    rfl
  . cases h
    rfl
  . cases h

theorem act_pinning {s s' : ControlPlane γ ω} {q q' : Pinning γ ω} {x : ControlPlane.Input γ ω}
    (h : q.act s x = some (s', q'))
    : s' = s := by
  unfold Pinning.act at h
  split at h
  . cases h
    rfl
  . cases h
    rfl
  . cases h

def AdminAt (cfg : GatewayConfig) (l : ListenerConfig) : Prop :=
  l.role = .admin ∨ ∀ l' ∈ effectiveListeners cfg.server, l'.role ≠ .admin

def Checked (codec : Codec) (cfg : GatewayConfig) (registry : PluginRegistry γ ω) (es : List (Event γ ω)) (i : Nat)
    (req : Request)
    : Prop :=
  ∃ before after q, es = before ++ .guard i :: after
    ∧ Machine.run (step codec) (boot codec cfg registry) before = some q
    ∧ TokenFrom cfg before q.control.shared.adminToken.current
    ∧ adminAuth q.control.shared.adminToken.current req.path req.headers = none

structure CallOk (codec : Codec) (cfg : GatewayConfig) (registry : PluginRegistry γ ω) (es : List (Event γ ω)) (i : Nat)
    (c : Call)
    : Prop where
  guarded : ∀ routes, c.progress = .guarded routes →
    AdminAt cfg c.listener ∧ adminRoutes cfg.dynamic.isSome c.req.path = some routes
  entered : ∀ h, c.progress.entered? = some h → h.isAdmin = true →
    AdminAt cfg c.listener ∧ Checked codec cfg registry es i c.req
      ∧ ∃ routes, adminRoutes cfg.dynamic.isSome c.req.path = some routes ∧ routes.lookup c.req.method = some h
  reload : ∀ j, c.reload = some j →
    c.progress = .answered .reloadEndpoint ∧ c.req.remote.ip.isLoopback = true

structure Inv (codec : Codec) (cfg : GatewayConfig) (registry : PluginRegistry γ ω) (es : List (Event γ ω))
    (p : Plane γ ω)
    : Prop where
  run : Machine.run (step codec) (boot codec cfg registry) es = some p
  mounts : p.mounts = App.mounts cfg.dynamic.isSome (effectiveListeners cfg.server)
  sourced : ∀ r, ControlPlane.Task.reload r ∈ p.control.threads → Sourced es r
  token : TokenFrom cfg es p.control.shared.adminToken.current
  calls : ∀ i c, p.calls[i]? = some c → CallOk codec cfg registry es i c

variable {cfg : GatewayConfig} {registry : PluginRegistry γ ω}

theorem Checked.append {es fs : List (Event γ ω)} {i : Nat} {req : Request} (h : Checked codec cfg registry es i req)
    : Checked codec cfg registry (es ++ fs) i req := by
  obtain ⟨before, after, q, heq, hrun, htoken, hauth⟩ := h
  refine ⟨before, after ++ fs, q, ?_, hrun, htoken, hauth⟩
  rw [heq, List.append_assoc, List.cons_append]

theorem CallOk.append {es fs : List (Event γ ω)} {i : Nat} {c : Call} (h : CallOk codec cfg registry es i c)
    : CallOk codec cfg registry (es ++ fs) i c where
  guarded := h.guarded
  entered := by
    intro handler hentered hadmin
    obtain ⟨hat, hchecked, hroutes⟩ := h.entered handler hentered hadmin
    exact ⟨hat, hchecked.append, hroutes⟩
  reload := h.reload

theorem entered_enter {routes : MethodRouter} {method : String} {h : Handler}
    : (routes.enter method).entered? = some h ↔ routes.lookup method = some h := by
  unfold MethodRouter.enter
  cases routes.lookup method with
  | none => simp [Progress.entered?]
  | some h' => simp [Progress.entered?]

theorem isAdmin_of_route {r : Router} {req : Request} {h : Handler} (hentered : (r.route req).entered? = some h)
    : h.isAdmin = false := by
  unfold Router.route at hentered
  split at hentered
  . cases hentered
  . split at hentered
    . split at hentered
      . next routes hroutes =>
        unfold App.dynamicRoutes at hroutes
        split at hroutes
        . obtain ⟨segment, -, rfl⟩ := Option.map_eq_some_iff.mp hroutes
          rw [entered_enter, post, List.lookup_cons] at hentered
          split at hentered
          . cases hentered
            unfold named
            cases pathParam segment <;> rfl
          . cases hentered
        . cases hroutes
      . cases hentered
        rfl
    . cases hentered

theorem adminRoutes_of_route {r : Router} {req : Request} {routes : MethodRouter} (h : r.route req = .guarded routes)
    : r.admin = true ∧ adminRoutes r.dynamic req.path = some routes := by
  unfold Router.route at h
  split at h
  . next routes' hroutes =>
    cases h
    split at hroutes
    . next hadmin => exact ⟨hadmin, hroutes⟩
    . cases hroutes
  . split at h
    . split at h
      . unfold MethodRouter.enter at h
        split at h <;> cases h
      . cases h
    . cases h

theorem mount_of_mem {dynamic : Bool} {listeners : List ListenerConfig} {m : Mount}
    (h : m ∈ App.mounts dynamic listeners)
    : m.router.dynamic = dynamic
      ∧ (m.router.admin = true → m.listener.role = .admin ∨ ∀ l ∈ listeners, l.role ≠ .admin) := by
  unfold App.mounts at h
  obtain ⟨l, -, rfl⟩ := List.mem_map.mp h
  have hdata : ∀ {r : Router},
      r = (if listeners.any fun l => l.role == .admin then dataRouter dynamic else router dynamic) →
        r.dynamic = dynamic ∧ (r.admin = true → ∀ l ∈ listeners, l.role ≠ .admin) := by
    rintro r rfl
    split
    . exact ⟨rfl, fun h => by cases h⟩
    . next hnone =>
      refine ⟨rfl, ?_⟩
      intro _ l hl hrole
      apply hnone
      rw [List.any_eq_true]
      exact ⟨l, hl, by simp [hrole]⟩
  dsimp only
  cases l.role with
  | admin => exact ⟨rfl, fun _ => .inl rfl⟩
  | inbound => exact ⟨(hdata rfl).1, fun h => .inr ((hdata rfl).2 h)⟩
  | outbound => exact ⟨(hdata rfl).1, fun h => .inr ((hdata rfl).2 h)⟩

theorem inv_boot : Inv codec cfg registry [] (boot codec cfg registry) where
  run := rfl
  mounts := rfl
  sourced := by
    intro r hr
    cases hr
  token := .inl rfl
  calls := by
    intro i c hc
    cases hc

variable {es : List (Event γ ω)} {p p' : Plane γ ω}

theorem inv_of_control {e : Pool.Event ControlPlane.Arrival (ControlPlane.Input γ ω)} (h : Inv codec cfg registry es p)
    (hrun : Machine.run (step codec) (boot codec cfg registry) (es ++ [.control e]) = some p')
    (hstep : ∃ control, ControlPlane.step codec p.control e = some control ∧ p' = { p with control := control })
    : Inv codec cfg registry (es ++ [.control e]) p' := by
  obtain ⟨control, hstep, rfl⟩ := hstep
  have hcalls : ∀ i c, p.calls[i]? = some c → CallOk codec cfg registry (es ++ [.control e]) i c := by
    intro i c hc
    exact (h.calls i c hc).append
  obtain ⟨o, rfl, rfl⟩ | ⟨i, x, t, s, t', rfl, ht, hact, rfl⟩ := Pool.step_cases _ _ hstep
  . refine ⟨hrun, h.mounts, ?_, h.token.append, hcalls⟩
    intro r hr
    rw [List.mem_append, List.mem_singleton] at hr
    rcases hr with hold | hnew
    . exact (h.sourced r hold).append
    . cases o <;> cases hnew <;> trivial
  . have hmem : Event.control (.step i x) ∈ es ++ [.control (.step i x)] := by simp
    have hold : ∀ r, ControlPlane.Task.reload r ∈ p.control.threads → Sourced (es ++ [.control (.step i x)]) r := by
      intro r hr
      exact (h.sourced r hr).append
    have hthread : (∀ r, t' = .reload r → Sourced (es ++ [.control (.step i x)]) r)
        ∧ TokenFrom cfg (es ++ [.control (.step i x)]) s.adminToken.current := by
      cases t with
      | reload r =>
        obtain ⟨⟨s', r'⟩, hr, heq⟩ := Option.map_eq_some_iff.mp hact
        cases heq
        obtain ⟨hsourced, htoken⟩ := act_reload hmem (hold r (List.mem_of_getElem? ht)) hr
        refine ⟨fun r'' hr'' => (by cases hr''; exact hsourced), ?_⟩
        rcases htoken with hsame | ⟨loaded, hloaded, htoken⟩
        . rw [hsame]
          exact h.token.append
        . exact .inr ⟨loaded, hloaded, htoken⟩
      | apply a =>
        obtain ⟨⟨s', a'⟩, ha, heq⟩ := Option.map_eq_some_iff.mp hact
        cases heq
        refine ⟨fun r hr => (by cases hr), ?_⟩
        rw [act_apply ha]
        exact h.token.append
      | request q =>
        obtain ⟨⟨s', q'⟩, hq, heq⟩ := Option.map_eq_some_iff.mp hact
        cases heq
        refine ⟨fun r hr => (by cases hr), ?_⟩
        rw [act_pinning hq]
        exact h.token.append
    refine ⟨hrun, h.mounts, ?_, hthread.2, hcalls⟩
    intro r hr
    rcases List.mem_or_eq_of_mem_set hr with hother | heq
    . exact hold r hother
    . exact hthread.1 r heq.symm

theorem inv_of_arrive {socket : Nat} {req : Request} {m : Mount} (h : Inv codec cfg registry es p)
    (hm : p.mounts[socket]? = some m)
    (hrun : Machine.run (step codec) (boot codec cfg registry) (es ++ [.arrive socket req])
      = some { p with calls := p.calls ++ [{ listener := m.listener, req := req, progress := m.router.route req }] })
    : Inv codec cfg registry (es ++ [.arrive socket req])
        { p with calls := p.calls ++ [{ listener := m.listener, req := req, progress := m.router.route req }] } := by
  refine ⟨hrun, h.mounts, fun r hr => (h.sourced r hr).append, h.token.append, ?_⟩
  intro i c hc
  rcases Pool.getElem?_concat_cases hc with rfl | hold
  . have hmem := List.mem_of_getElem? hm
    rw [h.mounts] at hmem
    obtain ⟨hdynamic, hadmin⟩ := mount_of_mem hmem
    constructor
    . intro routes hroutes
      obtain ⟨hrouter, hadminRoutes⟩ := adminRoutes_of_route hroutes
      rw [hdynamic] at hadminRoutes
      exact ⟨hadmin hrouter, hadminRoutes⟩
    . intro handler hentered hh
      rw [isAdmin_of_route hentered] at hh
      cases hh
    . intro j hj
      cases hj
  . exact (h.calls i c hold).append

theorem guard_cases {token : Option String} {c c' : Call} (h : guard token c = some c')
    : ∃ routes, c.progress = .guarded routes
      ∧ ((adminAuth token c.req.path c.req.headers = none ∧ c' = { c with progress := routes.enter c.req.method })
        ∨ ∃ status, c' = { c with progress := .refused status }) := by
  unfold guard at h
  split at h
  . next routes hroutes =>
    refine ⟨routes, hroutes, ?_⟩
    split at h
    . next hauth =>
      cases h
      exact .inl ⟨hauth, rfl⟩
    . cases h
      exact .inr ⟨_, rfl⟩
  . cases h

theorem inv_of_guard {i : Nat} {c c' : Call} (h : Inv codec cfg registry es p) (hi : p.calls[i]? = some c)
    (hguard : guard p.control.shared.adminToken.current c = some c')
    (hrun : Machine.run (step codec) (boot codec cfg registry) (es ++ [.guard i])
      = some { p with calls := p.calls.set i c' })
    : Inv codec cfg registry (es ++ [.guard i]) { p with calls := p.calls.set i c' } := by
  refine ⟨hrun, h.mounts, fun r hr => (h.sourced r hr).append, h.token.append, ?_⟩
  intro j d hd
  rcases Pool.getElem?_set_cases hd with ⟨rfl, rfl⟩ | ⟨-, hold⟩
  . have hc := h.calls j c hi
    obtain ⟨routes, hroutes, ⟨hauth, rfl⟩ | ⟨status, rfl⟩⟩ := guard_cases hguard
    . obtain ⟨hat, hadmin⟩ := hc.guarded routes hroutes
      constructor
      . intro routes' henter
        dsimp only at henter
        unfold MethodRouter.enter at henter
        split at henter <;> cases henter
      . intro handler hentered _
        refine ⟨hat, ⟨es, [], p, rfl, h.run, h.token, hauth⟩, routes, hadmin, ?_⟩
        exact entered_enter.mp hentered
      . intro k hk
        have hanswered := (hc.reload k hk).1
        rw [hroutes] at hanswered
        cases hanswered
    . constructor
      . intro routes' henter
        cases henter
      . intro handler hentered
        cases hentered
      . intro k hk
        have hanswered := (hc.reload k hk).1
        rw [hroutes] at hanswered
        cases hanswered
  . exact (h.calls j d hold).append

theorem handle_cases {i : Nat} {c : Call} (h : p.handle i c = some p')
    : ∃ handler, c.progress = .entered handler ∧ p'.mounts = p.mounts
      ∧ p'.control.shared = p.control.shared
      ∧ ((p'.control.threads = p.control.threads ∧ p'.calls = p.calls.set i { c with progress := .answered handler })
        ∨ (handler = .reloadEndpoint ∧ c.req.remote.ip.isLoopback = true
          ∧ p'.control.threads = p.control.threads ++ [ControlPlane.Task.start .reload]
          ∧ p'.calls = p.calls.set i
              { c with progress := .answered handler, reload := some p.control.threads.length })) := by
  unfold handle at h
  split at h
  . next hprogress =>
    split at h
    . next hloopback =>
      cases h
      exact ⟨_, hprogress, rfl, rfl, .inr ⟨rfl, hloopback, rfl, rfl⟩⟩
    . cases h
      exact ⟨_, hprogress, rfl, rfl, .inl ⟨rfl, rfl⟩⟩
  . next hprogress =>
    cases h
    exact ⟨_, hprogress, rfl, rfl, .inl ⟨rfl, rfl⟩⟩
  . next handler _ _ hprogress =>
    cases h
    exact ⟨handler, hprogress, rfl, rfl, .inl ⟨rfl, rfl⟩⟩
  . cases h

theorem inv_of_handle {i : Nat} {c : Call} (h : Inv codec cfg registry es p) (hi : p.calls[i]? = some c)
    (hhandle : p.handle i c = some p')
    (hrun : Machine.run (step codec) (boot codec cfg registry) (es ++ [.handle i]) = some p')
    : Inv codec cfg registry (es ++ [.handle i]) p' := by
  obtain ⟨handler, hprogress, hmounts, hshared, hrest⟩ := handle_cases hhandle
  have hc := h.calls i c hi
  have hanswered : ∀ reload, (∀ j, reload = some j → handler = .reloadEndpoint ∧ c.req.remote.ip.isLoopback = true) →
      CallOk codec cfg registry (es ++ [.handle i]) i { c with progress := .answered handler, reload := reload } := by
    intro reload hreload
    constructor
    . intro routes hroutes
      cases hroutes
    . intro handler' hentered hadmin
      cases hentered
      obtain ⟨hat, hchecked, hroutes⟩ := hc.entered handler (by rw [hprogress]; rfl) hadmin
      exact ⟨hat, hchecked.append, hroutes⟩
    . intro j hj
      obtain ⟨rfl, hloopback⟩ := hreload j hj
      exact ⟨rfl, hloopback⟩
  have hnone : ∀ j, c.reload = some j → handler = .reloadEndpoint ∧ c.req.remote.ip.isLoopback = true := by
    intro j hj
    have habsurd := (hc.reload j hj).1
    rw [hprogress] at habsurd
    cases habsurd
  have hothers : ∀ c', CallOk codec cfg registry (es ++ [.handle i]) i c' → p'.calls = p.calls.set i c' →
      ∀ j d, p'.calls[j]? = some d → CallOk codec cfg registry (es ++ [.handle i]) j d := by
    intro c' hc' hcalls j d hd
    rw [hcalls] at hd
    rcases Pool.getElem?_set_cases hd with ⟨rfl, rfl⟩ | ⟨-, hold⟩
    . exact hc'
    . exact (h.calls j d hold).append
  have htoken : TokenFrom cfg (es ++ [.handle i]) p'.control.shared.adminToken.current := by
    rw [hshared]
    exact h.token.append
  rcases hrest with ⟨hthreads, hcalls⟩ | ⟨rfl, hloopback, hthreads, hcalls⟩
  . refine ⟨hrun, by rw [hmounts, h.mounts], ?_, htoken, hothers _ (hanswered c.reload hnone) hcalls⟩
    intro r hr
    rw [hthreads] at hr
    exact (h.sourced r hr).append
  . refine ⟨hrun, by rw [hmounts, h.mounts], ?_, htoken, hothers _ (hanswered _ ?_) hcalls⟩
    . intro r hr
      rw [hthreads, List.mem_append, List.mem_singleton] at hr
      rcases hr with hold | hnew
      . exact (h.sourced r hold).append
      . cases hnew
        trivial
    . intro j _
      exact ⟨rfl, hloopback⟩

theorem inv_of_step {e : Event γ ω} (h : Inv codec cfg registry es p) (hstep : p.step codec e = some p')
    : Inv codec cfg registry (es ++ [e]) p' := by
  have hrun : Machine.run (step codec) (boot codec cfg registry) (es ++ [e]) = some p' := by
    rw [Machine.run_concat, h.run, Option.bind_some, hstep]
  cases e with
  | control e =>
    obtain ⟨control, hcontrol, rfl⟩ := Option.map_eq_some_iff.mp hstep
    exact inv_of_control h hrun ⟨control, hcontrol, rfl⟩
  | arrive socket req =>
    obtain ⟨m, hm, rfl⟩ := Option.map_eq_some_iff.mp hstep
    exact inv_of_arrive h hm hrun
  | guard i =>
    obtain ⟨c, hi, hguard⟩ := Option.bind_eq_some_iff.mp hstep
    obtain ⟨c', hc', rfl⟩ := Option.map_eq_some_iff.mp hguard
    exact inv_of_guard h hi hc' hrun
  | handle i =>
    obtain ⟨c, hi, hhandle⟩ := Option.bind_eq_some_iff.mp hstep
    exact inv_of_handle h hi hhandle hrun

theorem inv_of_run (hrun : Machine.run (step codec) (boot codec cfg registry) es = some p)
    : Inv codec cfg registry es p := by
  have hinv := Machine.inv_of_history (I := Inv codec cfg registry) (fun _ _ _ _ h hs => inv_of_step h hs) inv_boot hrun
  rwa [List.nil_append] at hinv

theorem entered_authorized {i : Nat} {c : Call} {h : Handler}
    (hrun : Machine.run (step codec) (boot codec cfg registry) es = some p) (hi : p.calls[i]? = some c)
    (hentered : c.progress.entered? = some h) (hadmin : h.isAdmin = true)
    : (c.listener.role = .admin ∨ ∀ l ∈ effectiveListeners cfg.server, l.role ≠ .admin)
      ∧ (∃ routes, adminRoutes cfg.dynamic.isSome c.req.path = some routes ∧ routes.lookup c.req.method = some h)
      ∧ (∀ j, c.reload = some j → h = .reloadEndpoint ∧ c.req.remote.ip.isLoopback = true)
      ∧ ∃ before after q token, es = before ++ .guard i :: after
        ∧ Machine.run (step codec) (boot codec cfg registry) before = some q
        ∧ q.control.shared.adminToken.current = token ∧ TokenFrom cfg before token
        ∧ (isAlwaysOpen c.req.path = true ∨ token = none ∨ presentedToken c.req.headers = token) := by
  have hc := (inv_of_run hrun).calls i c hi
  obtain ⟨hat, ⟨before, after, q, heq, hbefore, htoken, hauth⟩, hroutes⟩ := hc.entered h hentered hadmin
  refine ⟨hat, hroutes, ?_, before, after, q, _, heq, hbefore, rfl, htoken, adminAuth_eq_none.mp hauth⟩
  intro j hj
  obtain ⟨hanswered, hloopback⟩ := hc.reload j hj
  rw [hanswered] at hentered
  cases hentered
  exact ⟨rfl, hloopback⟩

def bootToken : RawHeaders := [("x-openrusty-token", [98, 111, 111, 116])]

def shutdownCall : List (Event Unit Unit) :=
  [.arrive 0 {
      method := "POST"
      path := "/openrusty/shutdown"
      headers := bootToken
      remote := { ip := .v4 0x0a000001, port := 40000 }
    },
    .control (.spawn .reload), .guard 0, .handle 0]

def entered? (p : Plane Unit Unit) (i : Nat) : Option (Call × Handler) :=
  p.calls[i]?.bind fun c => c.progress.entered?.map fun h => (c, h)

theorem entered_authorized_shutdown
    : ∃ p c, Machine.run (step plainCodec) (boot plainCodec bootConfig noPlugins) shutdownCall = some p
      ∧ p.calls[0]? = some c ∧ p.shutdown = true
      ∧ ∃ before after q token, shutdownCall = before ++ .guard 0 :: after
        ∧ Machine.run (step plainCodec) (boot plainCodec bootConfig noPlugins) before = some q
        ∧ q.control.shared.adminToken.current = token ∧ TokenFrom bootConfig before token
        ∧ (isAlwaysOpen c.req.path = true ∨ token = none ∨ presentedToken c.req.headers = token) := by
  have hrun : ((Machine.run (step plainCodec) (boot plainCodec bootConfig noPlugins) shutdownCall).map fun p =>
      ((entered? p 0).map Prod.snd, p.shutdown)) = some (some .shutdownEndpoint, true) := by
    decide +kernel
  obtain ⟨p, hp, hresult⟩ := Option.map_eq_some_iff.mp hrun
  obtain ⟨hentered, hshutdown⟩ := Prod.mk.inj hresult
  obtain ⟨⟨c, h⟩, hc, rfl⟩ := Option.map_eq_some_iff.mp hentered
  obtain ⟨c', hi, hh⟩ := Option.bind_eq_some_iff.mp hc
  obtain ⟨h', hh', heq⟩ := Option.map_eq_some_iff.mp hh
  cases heq
  exact ⟨p, c, hp, hi, hshutdown, (entered_authorized hp hi hh' rfl).2.2.2⟩

def isProbe (h : Handler) : Prop := h = .ready ∨ h = .live

/-- The token can be sent at all. -/
def Presentable (token : Option String) : Prop :=
  ∀ secret, token = some secret → ∀ c ∈ secret.toList, isVisible c = true

def Asks (e : Event γ ω) : Prop :=
  match e with
  | .control _ => False
  | _ => True

theorem isProbe_of_open {dynamic : Bool} {path method : String} {routes : MethodRouter} {h : Handler}
    (hopen : isAlwaysOpen path = true) (hroutes : adminRoutes dynamic path = some routes)
    (hmethod : routes.lookup method = some h)
    : isProbe h := by
  have hget : ∀ h', (get h').lookup method = some h → h = h' := by
    intro h' hlookup
    rw [get, List.lookup_cons, List.lookup_cons] at hlookup
    split at hlookup
    . cases hlookup
      rfl
    . split at hlookup
      . cases hlookup
        rfl
      . cases hlookup
  rw [isAlwaysOpen, alwaysOpen, List.contains_iff_mem, List.mem_cons, List.mem_singleton] at hopen
  rcases hopen with rfl | rfl
  . cases hroutes
    exact .inl (hget _ hmethod)
  . cases hroutes
    exact .inr (hget _ hmethod)

def Shut (n : Nat) (token : Option String) (q : Plane γ ω) : Prop :=
  q.control.shared.adminToken.current = token
    ∧ ∀ i c h, n ≤ i → q.calls[i]? = some c → c.progress.entered? = some h → h.isAdmin = true →
      isProbe h ∨ Presentable token

theorem shut_of_guard {n i : Nat} {token : Option String} {c c' : Call} (hinv : Inv codec cfg registry es p)
    (hshut : Shut n token p) (hi : p.calls[i]? = some c)
    (hguard : guard p.control.shared.adminToken.current c = some c')
    : Shut n token { p with calls := p.calls.set i c' } := by
  refine ⟨hshut.1, ?_⟩
  intro j d h hn hd hentered hadmin
  rcases Pool.getElem?_set_cases hd with ⟨rfl, rfl⟩ | ⟨-, hold⟩
  . obtain ⟨routes, hroutes, ⟨hauth, rfl⟩ | ⟨status, rfl⟩⟩ := guard_cases hguard
    . have hpath := ((hinv.calls j c hi).guarded routes hroutes).2
      rw [hshut.1] at hauth
      rcases adminAuth_eq_none.mp hauth with hopen | hnone | hpresented
      . exact .inl (isProbe_of_open hopen hpath (entered_enter.mp hentered))
      . right
        intro secret hsecret
        rw [hnone] at hsecret
        cases hsecret
      . right
        intro secret hsecret
        rw [hsecret] at hpresented
        exact isVisible_of_presented hpresented
    . cases hentered
  . exact hshut.2 j d h hn hold hentered hadmin

theorem shut_of_step {n : Nat} {token : Option String} {e : Event γ ω} (hinv : Inv codec cfg registry es p)
    (hshut : Shut n token p) (hask : Asks e) (hstep : p.step codec e = some p')
    : Shut n token p' := by
  cases e with
  | control e => exact hask.elim
  | arrive socket req =>
    obtain ⟨m, hm, rfl⟩ := Option.map_eq_some_iff.mp hstep
    refine ⟨hshut.1, ?_⟩
    intro i c h hn hc hentered hadmin
    rcases Pool.getElem?_concat_cases hc with rfl | hold
    . rw [isAdmin_of_route hentered] at hadmin
      cases hadmin
    . exact hshut.2 i c h hn hold hentered hadmin
  | guard i =>
    obtain ⟨c, hi, hguard⟩ := Option.bind_eq_some_iff.mp hstep
    obtain ⟨c', hc', rfl⟩ := Option.map_eq_some_iff.mp hguard
    exact shut_of_guard hinv hshut hi hc'
  | handle i =>
    obtain ⟨c, hi, hhandle⟩ := Option.bind_eq_some_iff.mp hstep
    obtain ⟨handler, hprogress, -, hshared, hrest⟩ := handle_cases hhandle
    have hold : ∀ d, d.progress = .answered handler → p'.calls = p.calls.set i d → Shut n token p' := by
      intro d hd hcalls
      refine ⟨by rw [hshared, hshut.1], ?_⟩
      intro j d' h hn hd' hentered hadmin
      rw [hcalls] at hd'
      rcases Pool.getElem?_set_cases hd' with ⟨rfl, rfl⟩ | ⟨-, hsame⟩
      . rw [hd] at hentered
        apply hshut.2 j c h hn hi ?_ hadmin
        rw [hprogress]
        exact hentered
      . exact hshut.2 j d' h hn hsame hentered hadmin
    rcases hrest with ⟨-, hcalls⟩ | ⟨-, -, -, hcalls⟩
    . exact hold _ rfl hcalls
    . exact hold _ rfl hcalls

theorem shut_of_run {n : Nat} {token : Option String} {q : Plane γ ω} {fs : List (Event γ ω)}
    (hinv : Inv codec cfg registry es p) (hshut : Shut n token p) (hfs : ∀ e ∈ fs, Asks e)
    (hrun : Machine.run (step codec) p fs = some q)
    : Shut n token q := by
  induction fs generalizing es p with
  | nil =>
    cases hrun
    exact hshut
  | cons e fs ih =>
    obtain ⟨u, hu, hrest⟩ := (Machine.run_cons_eq_some (step codec)).mp hrun
    apply ih (inv_of_step hinv hu) (shut_of_step hinv hshut (hfs e (by simp)) hu) ?_ hrest
    intro e' he'
    exact hfs e' (by simp [he'])

theorem exists_mount (cfg : GatewayConfig)
    : ∃ (socket : Nat) (m : Mount), (App.mounts cfg.dynamic.isSome (effectiveListeners cfg.server))[socket]? = some m
      ∧ m.router.admin = true ∧ m.router.dynamic = cfg.dynamic.isSome := by
  suffices hmem : ∃ m ∈ App.mounts cfg.dynamic.isSome (effectiveListeners cfg.server), m.router.admin = true by
    obtain ⟨m, hm, hadmin⟩ := hmem
    obtain ⟨socket, hsocket⟩ := List.getElem?_of_mem hm
    exact ⟨socket, m, hsocket, hadmin, (mount_of_mem hm).1⟩
  generalize hlisteners : effectiveListeners cfg.server = listeners
  have hne : listeners ≠ [] := by
    rw [← hlisteners, effectiveListeners]
    split
    . simp
    . next h => simpa using h
  by_cases hany : listeners.any (fun l => l.role == .admin) = true
  . obtain ⟨l, hl, hrole⟩ := List.any_eq_true.mp hany
    refine ⟨_, List.mem_map_of_mem hl, ?_⟩
    dsimp only
    rw [eq_of_beq hrole]
    rfl
  . obtain ⟨l, hl⟩ := List.exists_mem_of_ne_nil listeners hne
    refine ⟨_, List.mem_map_of_mem hl, ?_⟩
    dsimp only
    rw [if_neg hany]
    cases l.role <;> rfl

theorem exists_headers {token : Option String} (htoken : TokenFrom cfg es token) (hvisible : Presentable token)
    : ∃ headers, token = none ∨ presentedToken headers = token := by
  cases htok : token with
  | none => exact ⟨[], .inl rfl⟩
  | some secret =>
    have hsource : ∃ admin : AdminConfig, admin.effectiveToken = some secret := by
      rcases htoken with hboot | ⟨loaded, -, hloaded⟩
      . exact ⟨cfg.admin, by rw [← hboot, htok]⟩
      . exact ⟨loaded.admin, by rw [← hloaded, htok]⟩
    obtain ⟨admin, hadmin⟩ := hsource
    obtain ⟨headers, hheaders⟩ := (presentable_iff hadmin).mpr (hvisible secret htok)
    exact ⟨headers, .inr hheaders⟩

theorem management_reachable_iff (hrun : Machine.run (step codec) (boot codec cfg registry) es = some p)
    : (∃ fs q i c h, (∀ e ∈ fs, Asks e) ∧ Machine.run (step codec) p fs = some q ∧ p.calls.length ≤ i
        ∧ q.calls[i]? = some c ∧ c.progress.entered? = some h ∧ h.isAdmin = true ∧ ¬isProbe h)
      ↔ ∀ secret, p.control.shared.adminToken.current = some secret → ∀ c ∈ secret.toList, isVisible c = true := by
  have hinv := inv_of_run hrun
  constructor
  . rintro ⟨fs, q, i, c, h, hfs, hrun', hi, hc, hentered, hadmin, hprobe⟩
    have hshut : Shut p.calls.length p.control.shared.adminToken.current p := by
      refine ⟨rfl, ?_⟩
      intro j d h' hn hd
      have hlt := (List.getElem?_eq_some_iff.mp hd).1
      omega
    rcases (shut_of_run hinv hshut hfs hrun').2 i c h hi hc hentered hadmin with hprobe' | hvisible
    . exact absurd hprobe' hprobe
    . exact hvisible
  . intro hvisible
    -- A fresh call with the token in force is enough, whatever the others do.
    obtain ⟨headers, hheaders⟩ := exists_headers hinv.token hvisible
    obtain ⟨socket, m, hm, hrouter, hdynamic⟩ := exists_mount cfg
    let req : Request :=
      { method := "POST", path := "/openrusty/shutdown", headers := headers, remote := { ip := .v4 0, port := 0 } }
    have hroute : m.router.route req = .guarded (post .shutdownEndpoint) := by
      unfold Router.route
      rw [hrouter, if_pos rfl]
      rfl
    let arrived : Plane γ ω :=
      { p with calls := p.calls ++ [{ listener := m.listener, req := req, progress := m.router.route req }] }
    have harrive : p.step codec (.arrive socket req) = some arrived := by
      have hm' : p.mounts[socket]? = some m := by
        rw [hinv.mounts]
        exact hm
      simp only [step, hm', Option.map_some, arrived]
    let call : Call := { listener := m.listener, req := req, progress := .entered .shutdownEndpoint }
    have hguard : arrived.step codec (.guard p.calls.length)
        = some { arrived with calls := arrived.calls.set p.calls.length call } := by
      have hauth : adminAuth p.control.shared.adminToken.current req.path req.headers = none :=
        adminAuth_eq_none.mpr (.inr hheaders)
      simp only [step, arrived, List.getElem?_concat_length, Option.bind_some, guard, hroute, hauth]
      rfl
    refine ⟨[.arrive socket req, .guard p.calls.length],
      { arrived with calls := arrived.calls.set p.calls.length call },
      p.calls.length, call, .shutdownEndpoint, ?_, ?_, Nat.le_refl _, ?_, rfl, rfl, ?_⟩
    . intro e he
      rcases List.mem_cons.mp he with rfl | he
      . trivial
      . rw [List.mem_singleton] at he
        rw [he]
        trivial
    . rw [Machine.run_of_step _ harrive, Machine.run_of_step _ hguard, Machine.run_nil]
    . simp [arrived]
    . rintro (h | h) <;> cases h

def umlautConfig : GatewayConfig := { bootConfig with admin := { token := some "schlüssel" } }

theorem management_reachable_iff_unsendable
    : ¬∃ fs q i c h, (∀ e ∈ fs, Asks e)
        ∧ Machine.run (step plainCodec) (boot plainCodec umlautConfig noPlugins) fs = some q ∧ 0 ≤ i
        ∧ q.calls[i]? = some c ∧ c.progress.entered? = some h ∧ h.isAdmin = true ∧ ¬isProbe h := by
  have hboot : Machine.run (step plainCodec) (boot plainCodec umlautConfig noPlugins) [] = some _ := rfl
  intro hreached
  have hvisible := (management_reachable_iff hboot).mp hreached "schlüssel" (by decide +kernel) 'ü' (by decide +kernel)
  revert hvisible
  decide +kernel

end Plane

end App

end OpenRusty
