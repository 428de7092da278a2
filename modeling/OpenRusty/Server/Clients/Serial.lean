import OpenRusty.Server.Clients.Configured

/-!
This module contains the runs in which one publication follows the other and every configuration names its
upstreams apart, as its validation demands: there only a task that takes a client can put a stale one into
the pool.
-/

namespace OpenRusty

namespace Clients

section published

variable {cfg : Config}

theorem lookup_published_of_mem {up : TlsUpstream} (hnodup : (cfg.upstreams.map UpstreamConfig.name).Nodup)
    (hup : up ∈ upstreamsOf cfg)
    : (published cfg).lookup up.name = some up := by
  have hnames : ((upstreamsOf cfg).map fun up => up.name) = cfg.upstreams.map UpstreamConfig.name := by
    rw [upstreamsOf, List.map_map]
    rfl
  rw [← hnames] at hnodup
  exact AList.lookup_foldl_insert_of_nodup (fun up => up) hnodup hup

theorem configures_published {k : PoolKey} (hnodup : (cfg.upstreams.map UpstreamConfig.name).Nodup)
    (hk : k ∈ (clientsOf cfg).map fun client => client.1.key client.2)
    : Configures (published cfg) k := by
  rcases List.mem_map.mp hk with ⟨⟨up, peer⟩, hclient, rfl⟩
  rcases List.mem_flatMap.mp hclient with ⟨up', hup, hpeer⟩
  rcases List.mem_map.mp hpeer with ⟨peer', hpeer', heq⟩
  cases heq
  exact ⟨up.name, up, lookup_published_of_mem hnodup hup, peer, hpeer', rfl⟩

end published

section serial

namespace Task

def keeps (t : Task) : List PoolKey :=
  match t with
  | .registering _ rest live => live ++ rest.map fun client => client.1.key client.2
  | .evicting _ live => live
  | _ => []

end Task

/-- A publication starts when no other one is in progress. -/
def Serial (p : System) (e : Event) : Prop :=
  match e with
  | .spawn (.applyRuntime cfg) =>
    (cfg.upstreams.map UpstreamConfig.name).Nodup ∧ ∀ t ∈ p.threads, t.next = none
  | .spawn .serve => True
  | .step i x => ∀ pinned, p.threads[i]? = some (.serving pinned) →
    ∀ k ∈ (Task.serving pinned).leaves p.shared x, Covered p i k

structure SerialInv (p : System) : Prop where
  sole : ∀ (i j : Nat) (t u : Task), p.threads[i]? = some t → p.threads[j]? = some u →
    t.next ≠ none → u.next ≠ none → i = j
  configured : ∀ t ∈ p.threads, ∀ next, t.next = some next → ∀ k ∈ t.keeps, Configures next k

variable {p q : System} {s s' : State} {t t' : Task} {x : Input} {e : Event}

theorem next_act (h : act s t x = some (s', t')) : t'.next = t.next ∨ t'.next = none := by
  unfold act at h
  split at h
  . cases h
    exact .inl rfl
  . cases h
    exact .inl rfl
  . cases h
    exact .inl rfl
  . cases h
    exact .inr rfl
  . cases h
    exact .inr rfl
  . split at h
    . split at h
      . cases h
        exact .inr rfl
      . cases h
    . cases h
  . cases h
    exact .inr rfl
  . cases h

theorem keeps_act (h : act s t x = some (s', t')) : ∀ k ∈ t'.keeps, k ∈ t.keeps := by
  intro k hk
  unfold act at h
  split at h
  . cases h
    simpa [Task.keeps] using hk
  . cases h
    simpa [Task.keeps] using hk
  . cases h
    cases hk
  . cases h
    cases hk
  . cases h
    cases hk
  . split at h
    . split at h
      . cases h
        cases hk
      . cases h
    . cases h
  . cases h
    cases hk
  . cases h

theorem serialInv_boot : SerialInv boot where
  sole := by
    intro i j t u ht
    simp [boot] at ht
  configured := by
    intro t ht
    simp [boot] at ht

theorem getElem?_of_serve {i : Nat} (ht : (p.threads ++ [spawn .serve])[i]? = some t) (hnext : t.next ≠ none)
    : p.threads[i]? = some t := by
  rcases Pool.getElem?_concat_cases ht with rfl | hold
  . exact absurd rfl hnext
  . exact hold

theorem index_of_applyRuntime {cfg : Config} {i : Nat} (hnone : ∀ t ∈ p.threads, t.next = none)
    (ht : (p.threads ++ [spawn (.applyRuntime cfg)])[i]? = some t) (hnext : t.next ≠ none)
    : i = p.threads.length := by
  rw [List.getElem?_append] at ht
  split at ht
  . exact absurd (hnone t (List.mem_of_getElem? ht)) hnext
  . rw [List.getElem?_singleton] at ht
    split at ht
    . omega
    . cases ht

theorem serialInv_spawn (h : SerialInv p) (call : Call) (hok : Serial p (.spawn call))
    : SerialInv { p with threads := p.threads ++ [spawn call] } := by
  cases call with
  | serve =>
    constructor
    . intro i j t u ht hu htnext hunext
      exact h.sole i j t u (getElem?_of_serve ht htnext) (getElem?_of_serve hu hunext) htnext hunext
    . intro t ht next hnext k hk
      rcases List.mem_append.mp ht with hold | hnew
      . exact h.configured t hold next hnext k hk
      . rw [List.mem_singleton] at hnew
        subst hnew
        cases hnext
  | applyRuntime cfg =>
    obtain ⟨hnodup, hnone⟩ := hok
    constructor
    . intro i j t u ht hu htnext hunext
      rw [index_of_applyRuntime hnone ht htnext, index_of_applyRuntime hnone hu hunext]
    . intro t ht next hnext k hk
      rcases List.mem_append.mp ht with hold | hnew
      . rw [hnone t hold] at hnext
        cases hnext
      . rw [List.mem_singleton] at hnew
        subst hnew
        cases hnext
        exact configures_published hnodup hk

theorem serialInv_act {i : Nat} (h : SerialInv p) (ht : p.threads[i]? = some t)
    (hact : act p.shared t x = some (s, t'))
    : SerialInv { shared := s, threads := p.threads.set i t' } where
  sole := by
    have hnext : ∀ {j : Nat} {u : Task}, (p.threads.set i t')[j]? = some u → u.next ≠ none →
        ∃ v : Task, p.threads[j]? = some v ∧ v.next ≠ none := by
      intro j u hu hsome
      rcases Pool.getElem?_set_cases hu with ⟨rfl, rfl⟩ | ⟨-, hold⟩
      . rcases next_act hact with heq | hnone
        . exact ⟨t, ht, heq ▸ hsome⟩
        . exact absurd hnone hsome
      . exact ⟨u, hold, hsome⟩
    intro j l u v hu hv hunext hvnext
    rcases hnext hu hunext with ⟨u', hu', hunext'⟩
    rcases hnext hv hvnext with ⟨v', hv', hvnext'⟩
    exact h.sole j l u' v' hu' hv' hunext' hvnext'
  configured := by
    intro u hu next hnext k hk
    rcases mem_set_cases hu with rfl | ⟨j, -, hj⟩
    . rcases next_act hact with heq | hnone
      . rw [heq] at hnext
        exact h.configured t (List.mem_of_getElem? ht) next hnext k (keeps_act hact k hk)
      . rw [hnone] at hnext
        cases hnext
    . exact h.configured u (List.mem_of_getElem? hj) next hnext k hk

theorem serialInv_step (h : SerialInv p) (hok : Serial p e) (hstep : step p e = some q) : SerialInv q := by
  rcases Pool.step_cases spawn act hstep with ⟨call, rfl, rfl⟩ | ⟨i, x, t, s, t', rfl, ht, hact, rfl⟩
  . exact serialInv_spawn h call hok
  . exact serialInv_act h ht hact

theorem covered_of_keeps {i : Nat} {next : Upstreams} {k : PoolKey} (h : SerialInv p)
    (ht : p.threads[i]? = some t) (hnext : t.next = some next) (hk : k ∈ t.keeps)
    : Covered p i k := by
  have hsome : t.next ≠ none := by
    rw [hnext]
    exact Option.some_ne_none next
  right
  constructor
  . intro u hu next' hnext'
    rcases List.mem_iff_getElem?.mp hu with ⟨j, hj⟩
    have hji : j = i := by
      apply h.sole j i u t hj ht _ hsome
      rw [hnext']
      exact Option.some_ne_none next'
    subst hji
    rw [ht] at hj
    cases hj
    exact h.configured t (List.mem_of_getElem? ht) next' hnext' k hk
  . intro hnone
    exact absurd (hnone t (List.mem_of_getElem? ht)) hsome

theorem ok_of_serial (h : SerialInv p) (hok : Serial p e) : Ok p e := by
  cases e with
  | spawn call => trivial
  | step i x =>
    intro t ht k hk
    unfold Task.leaves at hk
    split at hk
    . next next live =>
      apply covered_of_keeps h ht rfl
      simpa [Task.keeps] using (List.mem_filter.mp hk).1
    . next next live =>
      exact covered_of_keeps h ht rfl (List.mem_filter.mp hk).1
    . next pinned upstream n => exact hok pinned ht k hk
    . cases hk

theorem guarded_of_serial {es : List Event} (hok : Machine.Guarded step Serial boot es)
    : Machine.Guarded step Ok boot es :=
  Machine.Guarded.of_inv (fun _ _ _ h hok hstep => serialInv_step h hok hstep)
    (fun _ _ h hok => ok_of_serial h hok) serialInv_boot hok

end serial

theorem onlyConfigured_of_run {p : System} {es : List Event}
    (hok : Machine.Guarded step Ok boot es ∨ Machine.Guarded step Serial boot es)
    (hrun : Machine.run step boot es = some p) (hfinished : AllFinished p)
    : OnlyConfigured p := by
  apply onlyConfigured_of_inv _ hfinished
  rcases hok with hok | hserial
  . exact inv_of_run hok hrun
  . exact inv_of_run (guarded_of_serial hserial) hrun

section movedPeer

def oldPeer : SocketAddr := { ip := .v4 0x0a000001#32, port := 80#16 }

def newPeer : SocketAddr := { ip := .v4 0x0a000002#32, port := 80#16 }

def webAt (addr : SocketAddr) : Config := { upstreams := [{ name := "web", peers := [{ addr := addr }] }] }

def publish (cfg : Config) (i : Nat) : List Event :=
  .spawn (.applyRuntime cfg) :: List.replicate 4 (.step i .run)

def earlyTake : List Event :=
  publish (webAt oldPeer) 0 ++ [.spawn .serve, .step 1 .run, .step 1 (.take "web" 0)]
    ++ publish (webAt newPeer) 2 ++ [.step 1 .finish]

def lateTake : List Event :=
  publish (webAt oldPeer) 0 ++ [.spawn .serve, .step 1 .run]
    ++ publish (webAt newPeer) 2 ++ [.step 1 (.take "web" 0), .step 1 .finish]

theorem onlyConfigured_of_run_earlyTake
    : ∃ p, Machine.run step boot earlyTake = some p ∧ OnlyConfigured p
        ∧ p.shared.pool.contains (.http oldPeer) = false ∧ p.shared.pool.contains (.http newPeer) = true := by
  refine ⟨_, rfl, ?_, by decide, by decide⟩
  have hok : Machine.Guarded step Ok boot earlyTake := by decide
  exact onlyConfigured_of_run (.inl hok) rfl (by decide)

theorem lateTake_retains
    : ¬∀ es p, Machine.run step boot es = some p → AllFinished p → OnlyConfigured p := by
  intro h
  have hconfigured : Configures (published (webAt newPeer)) (.http oldPeer) :=
    h lateTake _ rfl (by decide) (.http oldPeer) (by decide)
  exact absurd hconfigured (by decide)

end movedPeer

end Clients

end OpenRusty
