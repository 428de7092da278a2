import OpenRusty.Server.Pipeline.Lemmas

/-!
This module contains where the peers that a request works with come from: an index gets into its hands
by a health test that the peer has passed, and the peer is one of the pinned list that the request has
not tried. So the requests never index a peer list out of range, and a request in progress always has a
next step.
-/

namespace OpenRusty

def Stage.indices (stage : Stage) : List Nat :=
  match stage with
  | .choose candidates => candidates
  | .acquire idx => [idx]
  | .build idx => [idx]
  | .wait idx => [idx]
  | .record idx _ => [idx]
  | .release idx _ => [idx]
  | .accept idx => [idx]
  | _ => []

namespace Request

variable {γ ω : Type} {s : AppState ω} {r : Request γ ω} {x : Input} {y : AppState ω × Request γ ω}

def tests (r : Request γ ω) (idx : Nat) : Bool :=
  match r.stage with
  | .testPin i => idx == i
  | .listHealthy => true
  | _ => false

def Selectable (s : AppState ω) (r : Request γ ω) (idx nowMs : Nat) : Prop :=
  s.health.isHealthy r.up.name idx nowMs = true
    ∧ ∃ p, r.up.peers[idx]? = some p ∧ p.addr ∉ r.ctx.tried

theorem selectable_of_pinIsValid {i nowMs : Nat}
    (h : pinIsValid r.up i (s.health.isHealthy r.up.name i nowMs) r.ctx.tried = true)
    : r.Selectable s i nowMs := by
  unfold pinIsValid at h
  cases hp : r.up.peers[i]? with
  | none => simp [hp] at h
  | some p =>
    simp only [hp, Option.any_some, Bool.and_eq_true] at h
    exact ⟨h.1, p, hp, by simpa using h.2⟩

theorem selectable_of_mem {nowMs idx : Nat}
    (h : idx ∈ untriedHealthy r.up.peers
      (s.health.healthyIndices r.up.name r.up.peers.length nowMs) r.ctx.tried)
    : r.Selectable s idx nowMs := by
  unfold untriedHealthy at h
  rw [HealthRegistry.healthyIndices_eq] at h
  obtain ⟨hhealthy, huntried⟩ := List.mem_filter.mp h
  cases hp : r.up.peers[idx]? with
  | none => simp [hp] at huntried
  | some p =>
    simp only [hp, Option.any_some] at huntried
    exact ⟨(List.mem_filter.mp hhealthy).2, p, hp, by simpa using huntried⟩

theorem swrrPick_mem {up : Upstream} {cur cur' : List Int} {healthy : List Nat} {i : Nat}
    (h : swrrPick up cur healthy = some (i, cur'))
    : i ∈ healthy := by
  unfold swrrPick at h
  split at h
  . cases h
  . dsimp only at h
    obtain ⟨j, hj, heq⟩ := Option.map_eq_some_iff.mp h
    cases heq
    exact List.mem_of_getElem? hj

section indices

theorem indices_pick : (r.pick s).2.stage.indices = [] := by
  unfold pick
  dsimp only
  split
  . rfl
  . split
    . rfl
    . rfl

theorem indices_testPin {i nowMs idx : Nat} (h : idx ∈ (r.testPin s i nowMs).stage.indices)
    : idx = i ∧ r.Selectable s i nowMs := by
  unfold testPin at h
  split at h
  . next hvalid => exact ⟨List.mem_singleton.mp h, selectable_of_pinIsValid hvalid⟩
  . cases h

theorem indices_listHealthy {nowMs idx : Nat} (h : idx ∈ (r.listHealthy s nowMs).2.stage.indices)
    : r.Selectable s idx nowMs := by
  unfold listHealthy at h
  dsimp only at h
  split at h
  . cases h
  . exact selectable_of_mem h

theorem indices_chosen {i : Option Nat} {idx : Nat} (h : idx ∈ (r.chosen s i).2.stage.indices)
    : i = some idx := by
  unfold chosen at h
  split at h
  . rw [List.mem_singleton.mp h]
  . cases h

theorem indices_choose {candidates : List Nat} {idx : Nat}
    (h : idx ∈ (r.choose s candidates).2.stage.indices)
    : idx ∈ candidates := by
  unfold choose at h
  split at h
  . split at h
    . next i cur hpick =>
      cases indices_chosen h
      exact swrrPick_mem hpick
    . cases indices_chosen h
  . exact ipHashPick_mem (indices_chosen h)
  . exact leastConnPick_mem (indices_chosen h)

theorem indices_forward (idx : Nat) : (r.forward idx).stage.indices = [idx] := by
  unfold forward
  split
  . rfl
  . rfl

theorem indices_answer (idx : Nat) (outcome : Outcome)
    : (r.answer idx outcome).stage.indices = [idx] := by
  unfold answer
  split
  . rfl
  . rfl

theorem indices_nextAttempt : (r.nextAttempt s).2.stage.indices = [] := by
  unfold nextAttempt
  split
  . rfl
  . rfl

theorem indices_afterRelease (idx : Nat) (outcome : Outcome)
    : (r.afterRelease s idx outcome).2.stage.indices ⊆ [idx] := by
  unfold afterRelease
  split
  . apply List.nil_subset
  . split
    . rw [indices_nextAttempt]
      apply List.nil_subset
    . apply List.nil_subset
  . split
    . apply List.Subset.refl
    . apply List.nil_subset
  . apply List.nil_subset

end indices

theorem act_indices (hact : r.act s x = some y) {idx : Nat} (hidx : idx ∈ y.2.stage.indices)
    : idx ∈ r.stage.indices
      ∨ ∃ nowMs, x = .tick nowMs ∧ r.tests idx = true ∧ r.Selectable s idx nowMs := by
  unfold act at hact
  split at hact
  . cases hact
    rw [indices_pick] at hidx
    cases hidx
  . next i nowMs hstage =>
    cases hact
    obtain ⟨rfl, hselectable⟩ := indices_testPin hidx
    exact .inr ⟨nowMs, rfl, by simp [tests, hstage], hselectable⟩
  . next nowMs hstage =>
    cases hact
    exact .inr ⟨nowMs, rfl, by simp [tests, hstage], indices_listHealthy hidx⟩
  . next candidates nowMs hstage =>
    cases hact
    left
    rw [hstage]
    exact indices_choose hidx
  . next i nowMs hstage =>
    unfold acquire at hact
    obtain ⟨peer, -, rfl⟩ := Option.map_eq_some_iff.mp hact
    left
    rw [hstage]
    rw [indices_forward] at hidx
    exact hidx
  . next i hstage =>
    cases hact
    left
    rw [hstage]
    exact hidx
  . cases hact
    cases hidx
  . next i o hstage =>
    cases hact
    left
    rw [hstage]
    rw [indices_answer] at hidx
    exact hidx
  . cases hact
    cases hidx
  . next i o nowMs hstage =>
    cases hact
    left
    rw [hstage]
    exact hidx
  . next i o nowMs hstage =>
    cases hact
    left
    rw [hstage]
    exact indices_afterRelease i o hidx
  . cases hact
    cases hidx
  . cases hact

def InRange (r : Request γ ω) : Prop := ∀ idx ∈ r.stage.indices, idx < r.up.peers.length

theorem InRange.act (h : r.InRange) (hact : r.act s x = some y) : y.2.InRange := by
  intro idx hidx
  rw [(act_spec hact).up]
  obtain hidx | ⟨nowMs, -, -, -, p, hp, -⟩ := act_indices hact hidx
  . exact h idx hidx
  . exact (List.getElem?_eq_some_iff.mp hp).1

theorem inProgress_of_act (hact : r.act s x = some y) : r.inProgress = true := by
  unfold inProgress
  split
  . next hstage => simp [act, hstage] at hact
  . next hstage => simp [act, hstage] at hact
  . rfl

theorem exists_act (h : r.InRange) (hprogress : r.inProgress = true) : ∃ x y, r.act s x = some y := by
  unfold inProgress at hprogress
  cases hstage : r.stage with
  | pick | testPin i | listHealthy | choose candidates | record idx o | release idx o | accept idx =>
    exact ⟨.tick 0, _, by simp only [act, hstage]; rfl⟩
  | acquire idx =>
    have hlt : idx < r.up.peers.length := by
      apply h
      rw [hstage]
      apply List.mem_singleton_self
    refine ⟨.tick 0, ?_⟩
    simp [act, hstage, acquire, hlt]
  | build idx => exact ⟨.built true, _, by simp only [act, hstage]; rfl⟩
  | wait idx => exact ⟨.outcome .timedOut, _, by simp only [act, hstage]; rfl⟩
  | dropped | done status => simp [hstage] at hprogress

end Request

def Task.InRange {γ ω : Type} (t : Task γ ω) : Prop := ∀ r ∈ t.request?, r.InRange

theorem Task.InRange.act {γ ω : Type} {s s' : AppState ω} {t t' : Task γ ω} {x : Input}
    (h : t.InRange) (hact : t.act s x = some (s', t'))
    : t'.InRange := by
  obtain ⟨r, r', rfl, rfl, hact'⟩ | ⟨-, hfresh, -, -⟩ := act_cases hact
  . rintro _ ⟨⟩
    exact (h r rfl).act hact'
  . intro r hr idx hidx
    obtain hstage | hstage := (hfresh r hr).stage
    . rw [hstage] at hidx
      cases hidx
    . rw [hstage] at hidx
      cases hidx

namespace Server

variable {γ ω : Type}

theorem inRange_step {p q : Server γ ω} {e : Pool.Event (Arrival γ ω) Input}
    (h : ∀ (j : Nat) t, p.threads[j]? = some t → t.InRange) (hstep : step p e = some q)
    : ∀ (j : Nat) t, q.threads[j]? = some t → t.InRange := by
  apply Pool.forall_step _ _ _ _ h hstep
  . intro a r hr
    cases a <;> cases hr
  . intro s t x s' t' ht hact
    exact ht.act hact

theorem inRange_of_run {world : World ω} {es : List (Pool.Event (Arrival γ ω) Input)}
    {p : Server γ ω} (hrun : Machine.run step (init world) es = some p)
    : ∀ (j : Nat) t, p.threads[j]? = some t → t.InRange := by
  apply Machine.inv_of_run_all (I := fun p => ∀ (j : Nat) t, p.threads[j]? = some t → t.InRange) _ _ hrun
  . intro p e q h hstep
    exact inRange_step h hstep
  . intro j t ht
    cases ht

/-- No request gets stuck: the source never panics on an index. -/
theorem exists_step_of_inProgress {world : World ω} {es : List (Pool.Event (Arrival γ ω) Input)}
    {p : Server γ ω} (hrun : Machine.run step (init world) es = some p) {i : Nat} {r : Request γ ω}
    (hr : p.threads[i]? = some (.request r)) (hprogress : r.inProgress = true)
    : ∃ x q, step p (.step i x) = some q := by
  obtain ⟨x, y, hact⟩ := Request.exists_act (s := p.shared) (inRange_of_run hrun i _ hr r rfl) hprogress
  refine ⟨x, { shared := y.1, threads := p.threads.set i (.request y.2) }, ?_⟩
  simp [step, Pool.step, hr, Task.act, hact]

end Server

end OpenRusty
