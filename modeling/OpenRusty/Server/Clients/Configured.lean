import OpenRusty.Server.Clients.Basic

/-!
This module contains which runs leave only clients of the published runtime in the pool: those in which
no task puts a client into a table that has been evicted for a runtime without that client.
-/

namespace OpenRusty

namespace Clients

theorem contains_getClient (up : TlsUpstream) (peer : Peer) (pool : ClientPool) (k : PoolKey)
    : (up.getClient peer pool).contains k = true ↔ k = up.key peer ∨ pool.contains k = true := by
  unfold TlsUpstream.getClient TlsUpstream.key
  cases up.tls with
  | some tls => apply ClientPool.contains_getTls
  | none => apply ClientPool.contains_get

section covered

variable {p : System} {i : Nat} {t t' : Task} {s : State} {k : PoolKey}

def Good (p : System) (k : PoolKey) : Prop := (∃ t ∈ p.threads, t.evicts k = true) ∨ Wanted p k

theorem mem_set_cases {u : Task} (h : u ∈ p.threads.set i t') : u = t' ∨ ∃ j, j ≠ i ∧ p.threads[j]? = some u := by
  rcases List.mem_iff_getElem?.mp h with ⟨j, hj⟩
  rcases Pool.getElem?_set_cases hj with ⟨-, rfl⟩ | ⟨hne, hold⟩
  . exact .inl rfl
  . exact .inr ⟨j, hne, hold⟩

theorem mem_set_of_ne {j : Nat} {u : Task} (hne : j ≠ i) (hu : p.threads[j]? = some u)
    : u ∈ p.threads.set i t' := by
  apply List.mem_of_getElem? (i := j)
  rw [List.getElem?_set_ne (Ne.symm hne), hu]

theorem mem_set_self (ht : p.threads[i]? = some t) : t' ∈ p.threads.set i t' :=
  List.mem_set (List.getElem?_eq_some_iff.mp ht).1 t'

theorem covered_of_good (ht : p.threads[i]? = some t) (hevicts : t.evicts k = false) (h : Good p k)
    : Covered p i k := by
  rcases h with ⟨u, hu, hevicts'⟩ | hwanted
  . rcases List.mem_iff_getElem?.mp hu with ⟨j, hj⟩
    refine .inl ⟨j, u, ?_, hj, hevicts'⟩
    rintro rfl
    rw [ht] at hj
    cases hj
    rw [hevicts] at hevicts'
    cases hevicts'
  . exact .inr hwanted

theorem good_of_covered (ht : p.threads[i]? = some t) (hnext : t'.next = t.next)
    (hruntime : s.runtime = p.shared.runtime) (h : Covered p i k)
    : Good { shared := s, threads := p.threads.set i t' } k := by
  rcases h with ⟨j, u, hne, hu, hevicts⟩ | ⟨hpending, hruntime'⟩
  . exact .inl ⟨u, mem_set_of_ne hne hu, hevicts⟩
  . right
    constructor
    . intro u hu next hnext'
      rcases mem_set_cases hu with rfl | ⟨j, -, hj⟩
      . rw [hnext] at hnext'
        exact hpending t (List.mem_of_getElem? ht) next hnext'
      . exact hpending u (List.mem_of_getElem? hj) next hnext'
    . intro hnone
      rw [hruntime]
      apply hruntime'
      intro u hu
      rcases List.mem_iff_getElem?.mp hu with ⟨j, hj⟩
      by_cases hji : j = i
      . subst hji
        rw [ht] at hj
        cases hj
        rw [← hnext]
        exact hnone t' (mem_set_self ht)
      . exact hnone u (mem_set_of_ne hji hj)

theorem good_of_good (ht : p.threads[i]? = some t) (hnext : t'.next = t.next)
    (hruntime : s.runtime = p.shared.runtime) (hevicts : t.evicts k = true → t'.evicts k = true) (h : Good p k)
    : Good { shared := s, threads := p.threads.set i t' } k := by
  cases hkey : t.evicts k with
  | true => exact .inl ⟨t', mem_set_self ht, hevicts hkey⟩
  | false => exact good_of_covered ht hnext hruntime (covered_of_good ht hkey h)

theorem good_of_stored {next : Upstreams} (ht : p.threads[i]? = some (.storing next)) (h : Good p k)
    : Good { shared := { p.shared with runtime := next }, threads := p.threads.set i .finished } k := by
  rcases covered_of_good ht rfl h with ⟨j, u, hne, hu, hevicts⟩ | ⟨hpending, -⟩
  . exact .inl ⟨u, mem_set_of_ne hne hu, hevicts⟩
  . right
    constructor
    . intro u hu next' hnext'
      rcases mem_set_cases hu with rfl | ⟨j, -, hj⟩
      . cases hnext'
      . exact hpending u (List.mem_of_getElem? hj) next' hnext'
    . intro _
      exact hpending (.storing next) (List.mem_of_getElem? ht) next rfl

end covered

section run

variable {p q : System}

def Inv (p : System) : Prop := ∀ k, p.shared.pool.contains k = true → Good p k

theorem inv_boot : Inv boot := by
  intro k hk
  rw [boot, ClientPool.contains_new] at hk
  cases hk

theorem inv_spawn (h : Inv p) (call : Call) : Inv { p with threads := p.threads ++ [spawn call] } := by
  intro k hk
  cases call with
  | applyRuntime cfg => exact .inl ⟨spawn (.applyRuntime cfg), by simp, rfl⟩
  | serve =>
    rcases h k hk with ⟨t, ht, hevicts⟩ | ⟨hpending, hruntime⟩
    . exact .inl ⟨t, by simp [ht], hevicts⟩
    . right
      constructor
      . intro t ht next hnext
        rcases List.mem_append.mp ht with hold | hnew
        . exact hpending t hold next hnext
        . rw [List.mem_singleton] at hnew
          subst hnew
          cases hnext
      . intro hnone
        apply hruntime
        intro t ht
        exact hnone t (by simp [ht])

theorem inv_act {i : Nat} {t t' : Task} {s : State} {x : Input} (h : Inv p) (ht : p.threads[i]? = some t)
    (hok : ∀ k ∈ t.leaves p.shared x, Covered p i k) (hact : act p.shared t x = some (s, t'))
    : Inv { shared := s, threads := p.threads.set i t' } := by
  intro k hk
  unfold act at hact
  split at hact
  . next next up peer rest live =>
    cases hact
    exact .inl ⟨_, mem_set_self ht, rfl⟩
  . next next live =>
    cases hact
    -- The clients over TLS are left to the next step, in which the task still answers for them.
    have hcontains := (ClientPool.contains_evictHttp _ _ _).mp hk
    cases hhttps : k.isHttps with
    | true => exact .inl ⟨_, mem_set_self ht, hhttps⟩
    | false =>
      have hleaves : k ∈ Task.leaves p.shared (.registering next [] live) .run := by
        simp [Task.leaves, hcontains.2 hhttps, hhttps, hcontains.1]
      exact good_of_covered ht rfl rfl (hok k hleaves)
  . next next live =>
    cases hact
    have hcontains := (ClientPool.contains_evictHttps _ _ _).mp hk
    cases hhttps : k.isHttps with
    | true =>
      have hleaves : k ∈ Task.leaves p.shared (.evicting next live) .run := by
        simp [Task.leaves, hcontains.2 hhttps, hhttps, hcontains.1]
      exact good_of_covered ht rfl rfl (hok k hleaves)
    | false => exact good_of_covered ht rfl rfl (covered_of_good ht hhttps (h k hcontains.1))
  . next next =>
    cases hact
    exact good_of_stored ht (h k hk)
  . cases hact
    exact good_of_good ht rfl rfl id (h k hk)
  . next pinned upstream n =>
    split at hact
    . next up hup =>
      split at hact
      . next peer hpeer =>
        cases hact
        have hcontains := (contains_getClient up peer p.shared.pool k).mp hk
        cases hold : p.shared.pool.contains k with
        | true => exact good_of_good ht rfl rfl id (h k hold)
        | false =>
          rw [hold] at hcontains
          have hkey : k = up.key peer := by simpa using hcontains
          have hleaves : k ∈ Task.leaves p.shared (.serving pinned) (.take upstream n) := by
            simp [Task.leaves, hup, hpeer, ← hkey, hold]
          exact good_of_covered ht rfl rfl (hok k hleaves)
      . cases hact
    . cases hact
  . cases hact
    exact good_of_good ht rfl rfl id (h k hk)
  . cases hact

theorem inv_step {e : Event} (h : Inv p) (hok : Ok p e) (hstep : step p e = some q) : Inv q := by
  rcases Pool.step_cases spawn act hstep with ⟨call, rfl, rfl⟩ | ⟨i, x, t, s, t', rfl, ht, hact, rfl⟩
  . exact inv_spawn h call
  . exact inv_act h ht (hok t ht) hact

theorem onlyConfigured_of_inv (h : Inv p) (hfinished : AllFinished p) : OnlyConfigured p := by
  intro k hk
  rcases h k hk with ⟨t, ht, hevicts⟩ | ⟨-, hruntime⟩
  . rw [hfinished t ht] at hevicts
    cases hevicts
  . apply hruntime
    intro t ht
    rw [hfinished t ht]
    rfl

theorem inv_of_run {es : List Event} (hok : Machine.Guarded step Ok boot es)
    (hrun : Machine.run step boot es = some p)
    : Inv p :=
  Machine.inv_of_run (fun _ _ _ h hok hstep => inv_step h hok hstep) inv_boot hok hrun

end run

end Clients

end OpenRusty
