import OpenRusty.Lib.Linearize
import OpenRusty.Server.DynamicRoutesLemmas
import OpenRusty.Server.RouteCalls

/-!
This module contains the proof that the calls on the table of the dynamic routes take effect one after the
other, as long as no reload stores over a table that it did not load and no removal of a module loses its
last attempt.
-/

namespace OpenRusty

def RouteCall.removes (call : RouteCall) : Bool :=
  match call with
  | .unbindDynamicModule _ => true
  | _ => false

theorem DynamicRoutes.eq_iff {a b : DynamicRoutes}
    : a.exact.entries = b.exact.entries ∧ a.prefixes = b.prefixes ∧ a.configKeys = b.configKeys
      ↔ a = b := by
  rcases a with ⟨exact, prefixes, configKeys⟩
  rcases b with ⟨exact', prefixes', configKeys'⟩
  rw [DynamicRoutes.mk.injEq, AList.ext_iff]

namespace RouteTask

/-- A reload that stores works on the table that is there, and a removal swaps at its last attempt. -/
def Undisturbed (s : RouteTable) (t : RouteTask) : Prop :=
  match t.progress with
  | .swapping attempt version _ _ =>
    t.call.removes = true → RouteCall.attempts ≤ attempt + 1 → version = s.version
  | .storing (some loaded) _ => loaded = s.current
  | _ => True

instance (s : RouteTable) (t : RouteTask) : Decidable (t.Undisturbed s) :=
  match t with
  | ⟨call, .swapping attempt version _ _⟩ =>
    inferInstanceAs (Decidable
      (call.removes = true → RouteCall.attempts ≤ attempt + 1 → version = s.version))
  | ⟨_, .storing (some loaded) _⟩ => decidable_of_iff _ (DynamicRoutes.eq_iff (a := loaded) (b := s.current))
  | ⟨_, .storing none _⟩ => inferInstanceAs (Decidable True)
  | ⟨_, .loading _⟩ => inferInstanceAs (Decidable True)
  | ⟨_, .returned _⟩ => inferInstanceAs (Decidable True)

def Honoured (table : DynamicRoutes) (t : RouteTask) : Prop :=
  match t.call, t.progress with
  | .bindDynamicRoute method path module, .returned (.bound (.ok ())) =>
    ∃ key b, bindingOf method path module = some (key, b) ∧ ⟨key, b⟩ ∈ table.views
  | .unbindDynamicModule module, .returned _ => ∀ e ∈ table.views, e.2.module ≠ module
  | _, _ => True

end RouteTask

def RouteCalls.Undisturbed (p : RouteCalls) (e : RouteCalls.Event) : Prop :=
  match e with
  | .spawn _ => True
  | .step i _ => ∀ t ∈ p.threads[i]?, t.Undisturbed p.shared

instance (p : RouteCalls) (e : RouteCalls.Event) : Decidable (p.Undisturbed e) :=
  match e with
  | .spawn _ => inferInstanceAs (Decidable True)
  | .step i _ => inferInstanceAs (Decidable (∀ t ∈ p.threads[i]?, t.Undisturbed p.shared))

def RouteCall.Refused (c : RouteCall × RouteReply) : Prop :=
  ∃ method path module, c = (.bindDynamicRoute method path module, RouteCall.contention)

def RouteCall.Step (debug : String → String) (t : DynamicRoutes) (c : RouteCall × RouteReply)
    (next : DynamicRoutes) : Prop :=
  c.1.exec debug t = (next, c.2) ∨ Refused c ∧ next = t

namespace RouteTask

variable (debug : String → String)

def Prepared (s : RouteTable) (t : RouteTask) : Prop :=
  match t.progress with
  | .swapping _ version next reply =>
    reply ≠ .applied
      ∧ ∃ current, s.history[version]? = some current ∧ t.call.exec debug current = (next, reply)
  | .storing loaded next =>
    ∀ table, (∀ l, loaded = some l → l = table) → t.call.exec debug table = (next, .applied)
  | _ => True

theorem prepared_load (s : RouteTable) (call : RouteCall) (attempt : Nat)
    : Prepared debug s { call := call, progress := call.load debug attempt s } := by
  unfold RouteCall.load
  cases call with
  | bindDynamicRoute method path module =>
    dsimp only
    cases hbind : s.current.bind debug method path module with
    | error e => trivial
    | ok next =>
      refine ⟨nofun, s.current, ArcSwap.getElem?_version s, ?_⟩
      unfold RouteCall.exec
      simp only [hbind]
  | unbindDynamicModule module => exact ⟨nofun, s.current, ArcSwap.getElem?_version s, rfl⟩
  | applyDynamicRoutes routes =>
    cases routes with
    | none =>
      intro table _
      rfl
    | some routes =>
      intro table htable
      rw [← htable s.current rfl]
      rfl

theorem Prepared.store {debug : String → String} {s : RouteTable} {t : RouteTask}
    (h : t.Prepared debug s) (next : DynamicRoutes)
    : t.Prepared debug (s.store next) := by
  unfold Prepared at *
  split at h
  . rcases h with ⟨hreply, current, hcurrent, hexec⟩
    exact ⟨hreply, current, ArcSwap.getElem?_store hcurrent next, hexec⟩
  . exact h
  . trivial

end RouteTask

namespace RouteCall

variable {debug : String → String}

theorem swap_cases (call : RouteCall) (attempt version : Nat) (next : DynamicRoutes) (reply : RouteReply)
    (s : RouteTable)
    : version = s.version ∧ call.swap attempt version next reply s = (s.store next, .returned reply)
      ∨ version ≠ s.version ∧ attempt + 1 < attempts
        ∧ call.swap attempt version next reply s = (s, .loading (attempt + 1))
      ∨ version ≠ s.version ∧ ¬attempt + 1 < attempts
        ∧ call.swap attempt version next reply s = (s, .returned call.exhausted) := by
  unfold swap ArcSwap.compareAndSwap
  by_cases hversion : version = s.version
  . simp [hversion]
  . by_cases hattempt : attempt + 1 < attempts
    . simp [hversion, hattempt]
    . simp [hversion, hattempt]

theorem act_cases {s s' : RouteTable} {t t' : RouteTask} {x : Unit}
    (h : act debug s t x = some (s', t'))
    : (∃ attempt, t.progress = .loading attempt ∧ s' = s
        ∧ t' = { t with progress := t.call.load debug attempt s })
      ∨ (∃ attempt next reply, t.progress = .swapping attempt s.version next reply
        ∧ s' = s.store next ∧ t' = { t with progress := .returned reply })
      ∨ (∃ attempt version next reply, t.progress = .swapping attempt version next reply
        ∧ version ≠ s.version ∧ s' = s
        ∧ (t' = { t with progress := .loading (attempt + 1) }
          ∨ attempts ≤ attempt + 1 ∧ t' = { t with progress := .returned t.call.exhausted }))
      ∨ ∃ loaded next, t.progress = .storing loaded next ∧ s' = s.store next
        ∧ t' = { t with progress := .returned .applied } := by
  unfold act at h
  split at h
  . next attempt hprogress =>
    cases h
    exact .inl ⟨attempt, hprogress, rfl, rfl⟩
  . next attempt version next reply hprogress =>
    rcases swap_cases t.call attempt version next reply s with
      ⟨rfl, hswap⟩ | ⟨hne, hlt, hswap⟩ | ⟨hne, hlt, hswap⟩
    . rw [hswap] at h
      cases h
      exact .inr (.inl ⟨attempt, next, reply, hprogress, rfl, rfl⟩)
    . rw [hswap] at h
      cases h
      exact .inr (.inr (.inl ⟨attempt, version, next, reply, hprogress, hne, rfl, .inl rfl⟩))
    . rw [hswap] at h
      cases h
      exact .inr (.inr (.inl ⟨attempt, version, next, reply, hprogress, hne, rfl,
        .inr ⟨Nat.le_of_not_lt hlt, rfl⟩⟩))
  . next loaded next hprogress =>
    cases h
    exact .inr (.inr (.inr ⟨loaded, next, hprogress, rfl, rfl⟩))
  . cases h

end RouteCall

namespace RouteCalls

variable {debug : String → String}

def Prepared (debug : String → String) (p : RouteCalls) : Prop :=
  ∀ (i : Nat) t, p.threads[i]? = some t → t.Prepared debug p.shared

theorem prepared_of_step {p q : RouteCalls} {e : Event} (h : p.Prepared debug)
    (hstep : step debug p e = some q)
    : q.Prepared debug := by
  rcases Pool.step_cases _ _ hstep with ⟨call, rfl, rfl⟩ | ⟨i, x, t, s, t', rfl, ht, hact, rfl⟩
  . apply Pool.forall_concat _ h
    trivial
  . have hold (next : DynamicRoutes) (j : Nat) (u : RouteTask) (hu : p.threads[j]? = some u)
        : u.Prepared debug (p.shared.store next) := by
      apply (h j u hu).store
    rcases RouteCall.act_cases hact with
      ⟨attempt, -, rfl, rfl⟩ | ⟨attempt, next, reply, -, rfl, rfl⟩
        | ⟨attempt, version, next, reply, -, -, rfl, rfl | ⟨-, rfl⟩⟩ | ⟨loaded, next, -, rfl, rfl⟩
    . apply Pool.forall_set
      . apply RouteTask.prepared_load
      . intro j u _ hu
        exact h j u hu
    . apply Pool.forall_set
      . trivial
      . intro j u _ hu
        exact hold next j u hu
    . apply Pool.forall_set
      . trivial
      . intro j u _ hu
        exact h j u hu
    . apply Pool.forall_set
      . trivial
      . intro j u _ hu
        exact h j u hu
    . apply Pool.forall_set
      . trivial
      . intro j u _ hu
        exact hold next j u hu

theorem reply_load {s : RouteTable} {call : RouteCall} {attempt : Nat} {reply : RouteReply}
    (h : call.load debug attempt s = .returned reply)
    : call.exec debug s.current = (s.current, reply) := by
  unfold RouteCall.load at h
  unfold RouteCall.exec
  cases call with
  | bindDynamicRoute method path module =>
    dsimp only at h ⊢
    cases hbind : s.current.bind debug method path module with
    | error e =>
      rw [hbind] at h
      cases h
      rfl
    | ok next =>
      rw [hbind] at h
      cases h
  | unbindDynamicModule module => cases h
  | applyDynamicRoutes routes => cases routes <;> cases h

theorem effect_of_act {s s' : RouteTable} {t t' : RouteTask} {x : Unit} (h : t.Prepared debug s)
    (hok : t.Undisturbed s) (hact : RouteCall.act debug s t x = some (s', t'))
    : s'.current = s.current ∧ t'.reply = t.reply
      ∨ ∃ c, t.reply = none ∧ t'.reply = some c ∧ RouteCall.Step debug s.current c s'.current := by
  rcases t with ⟨call, progress⟩
  rcases RouteCall.act_cases hact with
    ⟨attempt, rfl, rfl, rfl⟩ | ⟨attempt, next, reply, rfl, rfl, rfl⟩
      | ⟨attempt, version, next, reply, rfl, hne, rfl, rfl | ⟨hlast, rfl⟩⟩ | ⟨loaded, next, rfl, rfl, rfl⟩
  . cases hload : call.load debug attempt s' with
    | returned reply => exact .inr ⟨_, rfl, rfl, .inl (reply_load hload)⟩
    | _ => exact .inl ⟨rfl, rfl⟩
  . right
    rcases h with ⟨-, current, hcurrent, hexec⟩
    rw [ArcSwap.getElem?_version] at hcurrent
    cases hcurrent
    exact ⟨_, rfl, rfl, .inl hexec⟩
  . exact .inl ⟨rfl, rfl⟩
  . right
    cases call with
    | bindDynamicRoute method path module =>
      exact ⟨_, rfl, rfl, .inr ⟨⟨method, path, module, rfl⟩, rfl⟩⟩
    | unbindDynamicModule module => exact absurd (hok rfl hlast) hne
    | applyDynamicRoutes routes =>
      rcases h with ⟨hreply, current, -, hexec⟩
      cases routes <;> cases hexec <;> exact absurd rfl hreply
  . right
    refine ⟨_, rfl, rfl, .inl ?_⟩
    apply h
    intro l hl
    subst hl
    exact hok

theorem reply_of_act {s s' : RouteTable} {t t' : RouteTask} {x : Unit}
    (h : RouteCall.act debug s t x = some (s', t'))
    : t.reply = none := by
  rcases t with ⟨call, progress⟩
  cases progress with
  | returned reply => cases h
  | _ => rfl

theorem honoured_of_reply_eq_none {t : RouteTask} (h : t.reply = none) (table : DynamicRoutes)
    : t.Honoured table := by
  rcases t with ⟨call, progress⟩
  cases progress with
  | returned reply => cases h
  | _ => cases call <;> trivial

theorem honoured_bind {table next : DynamicRoutes} {method path module : String} {reply : RouteReply}
    (h : RouteCall.exec debug table (.bindDynamicRoute method path module) = (next, reply))
    : RouteTask.Honoured next
        { call := .bindDynamicRoute method path module, progress := .returned reply } := by
  unfold RouteCall.exec at h
  dsimp only at h
  cases hbinding : bindingOf method path module with
  | none =>
    rcases DynamicRoutes.bindOwned_of_bindingOf_eq_none debug table hbinding false with ⟨e, he⟩
    unfold DynamicRoutes.bind at h
    rw [he] at h
    cases h
    trivial
  | some x =>
    rcases x with ⟨key, b⟩
    unfold DynamicRoutes.bind at h
    rw [DynamicRoutes.bindOwned_of_bindingOf debug table hbinding] at h
    by_cases hfull : (!table.contains key && decide (DynamicRoutes.maxBindings ≤ table.size)) = true
    . rw [if_pos hfull] at h
      cases h
      trivial
    . rw [if_neg hfull] at h
      cases h
      refine ⟨key, b, hbinding, ?_⟩
      rw [(DynamicRoutes.views_put table key b false).mem_iff]
      simp

theorem honoured_of_step {table next : DynamicRoutes} {t : RouteTask} {c : RouteCall × RouteReply}
    (ht : t.reply = some c) (h : RouteCall.Step debug table c next)
    : t.Honoured next := by
  rcases t with ⟨call, progress⟩
  cases progress with
  | returned reply =>
    cases ht
    rcases h with hexec | ⟨⟨method, path, module, hrefused⟩, -⟩
    . cases call with
      | bindDynamicRoute method path module => exact honoured_bind hexec
      | unbindDynamicModule module =>
        have hnext : next = (table.unbindModule module).1 := (congrArg Prod.fst hexec).symm
        intro e he
        rw [hnext, DynamicRoutes.views_unbindModule, List.mem_filter] at he
        simpa using he.2
      | applyDynamicRoutes routes => trivial
    . cases hrefused
      trivial
  | _ => cases ht

theorem prepared_start (t : DynamicRoutes) : (start t).Prepared debug := by
  intro i u hu
  cases hu

theorem linearized_of_run {p q : RouteCalls} {es : List Event} (h : p.Prepared debug)
    (hok : Machine.Guarded (step debug) Undisturbed p es) (hrun : Machine.run (step debug) p es = some q)
    : ∃ cs, Replays (RouteCall.Step debug) p.shared.current cs q.shared.current
        ∧ (p.effects RouteTask.reply ++ cs).Perm (q.effects RouteTask.reply) := by
  apply Pool.sequential_of_run ArcSwap.current (I := Prepared debug) _ _ _ h hok hrun
  . intro call
    rfl
  . intro p e q h _ hstep
    exact prepared_of_step h hstep
  . intro p i x t s t' h hok ht hact
    exact effect_of_act (h i t ht) (hok t ht) hact

def KeepsPromise (p : RouteCalls) (_ : Event) (q : RouteCalls) : Prop :=
  ∀ (i : Nat) t, q.threads[i]? = some t → p.threads[i]? ≠ some t → t.Honoured q.shared.current

theorem keepsPromise_of_step {p q : RouteCalls} {e : Event} (h : p.Prepared debug) (hok : p.Undisturbed e)
    (hstep : step debug p e = some q)
    : KeepsPromise p e q := by
  intro i t ht hnew
  rcases Pool.step_cases _ _ hstep with ⟨call, rfl, rfl⟩ | ⟨j, x, u, s, u', rfl, hu, hact, rfl⟩
  . rcases Pool.getElem?_concat_cases ht with rfl | hold
    . cases call <;> trivial
    . exact absurd hold hnew
  . rcases Pool.getElem?_set_cases ht with ⟨rfl, rfl⟩ | ⟨-, hold⟩
    . rcases effect_of_act (h i u hu) (hok u hu) hact with ⟨-, hreply⟩ | ⟨c, -, hreply, hstep⟩
      . apply honoured_of_reply_eq_none
        rw [hreply, reply_of_act hact]
      . exact honoured_of_step hreply hstep
    . exact absurd hold hnew

theorem routeCalls_linearizable (debug : String → String) (t : DynamicRoutes) (es fs : List Event)
    {p q : RouteCalls} (hok : Machine.Guarded (step debug) Undisturbed (start t) (es ++ fs))
    (hes : Machine.run (step debug) (start t) es = some p) (hfs : Machine.run (step debug) p fs = some q)
    : (∃ order rest, order.Perm (p.effects RouteTask.reply)
        ∧ (order ++ rest).Perm (q.effects RouteTask.reply)
        ∧ Replays (RouteCall.Step debug) t order p.shared.current
        ∧ Replays (RouteCall.Step debug) p.shared.current rest q.shared.current)
      ∧ Machine.Along (step debug) KeepsPromise (start t) (es ++ fs) := by
  rcases hok.of_append with ⟨hok₁, hok₂⟩
  constructor
  . rcases linearized_of_run (prepared_start t) hok₁ hes with ⟨order, horder, hperm⟩
    have hprepared : p.Prepared debug :=
      Machine.inv_of_run_all (fun _ _ _ h hstep => prepared_of_step h hstep) (prepared_start t) hes
    rcases linearized_of_run hprepared (hok₂ p hes) hfs with ⟨rest, hrest, hperm'⟩
    refine ⟨order, rest, hperm, ?_, horder, hrest⟩
    exact (hperm.append_right rest).trans hperm'
  . have hguarded : Machine.Guarded (step debug) (fun p e => p.Prepared debug ∧ p.Undisturbed e) (start t)
        (es ++ fs) := by
      apply Machine.Guarded.of_inv (I := Prepared debug) _ _ (prepared_start t) hok
      . intro p e q h _ hstep
        exact prepared_of_step h hstep
      . intro p e h hok
        exact ⟨h, hok⟩
    apply Machine.along_of_guarded _ hguarded
    intro p e q h hstep
    exact keepsPromise_of_step h.1 h.2 hstep

theorem routeCalls_linearizable_retry
    : let es : List Event := [.spawn (.bindDynamicRoute "get" "/a/*" "hello"),
        .spawn (.applyDynamicRoutes (some [⟨"GET", "/b", "other"⟩])), .step 0 (), .step 1 (), .step 1 ()]
      let fs : List Event := [.step 0 (), .step 0 (), .step 0 ()]
      ∃ p q, Machine.run (step id) (start {}) es = some p ∧ Machine.run (step id) p fs = some q
        ∧ q.threads.all (fun t => t.reply.isSome) = true
        ∧ ∃ order rest, order.Perm (p.effects RouteTask.reply)
          ∧ (order ++ rest).Perm (q.effects RouteTask.reply)
          ∧ Replays (RouteCall.Step id) {} order p.shared.current
          ∧ Replays (RouteCall.Step id) p.shared.current rest q.shared.current := by
  refine ⟨_, _, rfl, rfl, rfl, ?_⟩
  exact (routeCalls_linearizable id {}
    [.spawn (.bindDynamicRoute "get" "/a/*" "hello"),
      .spawn (.applyDynamicRoutes (some [⟨"GET", "/b", "other"⟩])), .step 0 (), .step 1 (), .step 1 ()]
    [.step 0 (), .step 0 (), .step 0 ()] (by decide) rfl rfl).1

theorem views_of_bind_and_apply {t : DynamicRoutes} {order : List (RouteCall × RouteReply)}
    (hperm : order.Perm [(.applyDynamicRoutes (some []), .applied),
      (.bindDynamicRoute "GET" "/a" "hello", .bound (.ok ()))])
    (h : Replays (RouteCall.Step id) {} order t)
    : t.views ≠ [] := by
  rcases h.of_perm_pair hperm with ⟨t₁, -, t₂, hbind, rfl⟩ | ⟨t₁, hbind, t₂, happly, rfl⟩
  . have hhonoured : RouteTask.Honoured t₂
        ⟨.bindDynamicRoute "GET" "/a" "hello", .returned (.bound (.ok ()))⟩ := honoured_of_step rfl hbind
    rcases hhonoured with ⟨key, b, -, hmem⟩
    exact List.ne_nil_of_mem hmem
  . rcases hbind with hbind | ⟨⟨_, _, _, hrefused⟩, -⟩
    . rcases happly with happly | ⟨⟨_, _, _, hrefused⟩, -⟩
      . have h₁ := congrArg Prod.fst hbind
        have h₂ := congrArg Prod.fst happly
        dsimp only at h₁ h₂
        rw [← h₂, ← h₁]
        decide
      . cases hrefused
    . cases hrefused

theorem routeCalls_lost_bind
    : ∃ q, Machine.run (step id) (start {}) [.spawn (.applyDynamicRoutes (some [])),
          .spawn (.bindDynamicRoute "GET" "/a" "hello"), .step 0 (), .step 1 (), .step 1 (), .step 0 ()]
        = some q
      ∧ q.effects RouteTask.reply = [(.applyDynamicRoutes (some []), .applied),
          (.bindDynamicRoute "GET" "/a" "hello", .bound (.ok ()))]
      ∧ q.shared.current.views = []
      ∧ ¬∃ order, order.Perm (q.effects RouteTask.reply)
        ∧ Replays (RouteCall.Step id) {} order q.shared.current := by
  refine ⟨_, rfl, rfl, rfl, ?_⟩
  rintro ⟨order, hperm, horder⟩
  exact views_of_bind_and_apply hperm horder rfl

end RouteCalls

end OpenRusty
