import OpenRusty.Server.Pipeline.InFlight
import OpenRusty.Server.Pipeline.Selection

/-!
This module contains the attribution of outcomes to peers. A request carries the index of its peer in
the list it was pinned to, and the registry takes that index for a position in the list of the last
reload; the two mean the same address as long as the registered list has nothing else at that position.
-/

namespace OpenRusty

def HealthOp.records (op : HealthOp) : Option (String × Nat) :=
  match op with
  | .recordFailure upstream idx _ _ => some (upstream, idx)
  | .recordSuccess upstream idx _ => some (upstream, idx)
  | _ => none

namespace HealthRegistry

def passive (h : HealthRegistry) (upstream : String) (i : Nat) : Option (PeerCounters × Nat) :=
  (h.slot upstream i).map fun x => (x.2.counters, x.2.downUntilMs)

def ReadsStateOf (h : HealthRegistry) (upstream : String) (a : SocketAddr) (nowMs : Nat)
    (healthy : Bool)
    : Prop :=
  (∃ i p, h.slot upstream i = some (a, p) ∧ healthy = p.isUp nowMs)
    ∨ a ∉ h.registered upstream ∧ healthy = true

theorem passive_modifyAddr (h : HealthRegistry) (upstream : String) (addr : SocketAddr)
    {f : PeerHealth → PeerHealth}
    (hf : ∀ p, (f p).counters = p.counters ∧ (f p).downUntilMs = p.downUntilMs) (v : String) (i : Nat)
    : (h.modifyAddr upstream addr f).passive v i = h.passive v i := by
  unfold passive
  rw [slot_modifyAddr]
  split
  . rw [Option.map_map]
    congr 1
    funext x
    simp [hf]
  . rfl

theorem passive_recordProbe (h : HealthRegistry) (upstream : String) (idx : Nat) (addr : SocketAddr)
    (ok : Bool) (unhealthyThreshold healthyThreshold : Nat) (v : String) (i : Nat)
    : (h.recordProbe upstream idx addr ok unhealthyThreshold healthyThreshold).2.passive v i
        =
      h.passive v i := by
  unfold passive
  rw [slot_recordProbe]
  split
  . rw [Option.map_map]
    rfl
  . rfl

theorem passive_modifyAt_ne {h : HealthRegistry} {upstream : String} {idx : Nat}
    {f : PeerHealth → PeerHealth} {v : String} {i : Nat}
    (hne : (h.modifyAt upstream idx f).passive v i ≠ h.passive v i)
    : (upstream, idx) = (v, i) ∧ ∃ a, (h.registered v)[i]? = some a := by
  unfold passive at hne
  rw [slot_modifyAt] at hne
  split at hne
  . next heq =>
    obtain ⟨rfl, rfl⟩ := heq
    refine ⟨rfl, ?_⟩
    rw [← Option.isSome_iff_exists, ← Option.ne_none_iff_isSome]
    intro hnone
    rw [← map_fst_slot, Option.map_eq_none_iff] at hnone
    rw [hnone] at hne
    exact hne rfl
  . exact absurd rfl hne

theorem passive_exec {h : HealthRegistry} {op : HealthOp} {v : String} {i : Nat}
    (hne : (h.exec op).passive v i ≠ h.passive v i)
    : (∃ addrs, op = .register v addrs)
      ∨ op.records = some (v, i) ∧ ∃ a, (h.registered v)[i]? = some a := by
  cases op with
  | register upstream addrs =>
    by_cases hv : v = upstream
    . subst hv
      exact .inl ⟨addrs, rfl⟩
    . refine absurd ?_ hne
      change (h.register upstream addrs).passive v i = _
      unfold passive
      rw [slot_register, if_neg hv]
  | recordFailure upstream idx cfg nowMs =>
    right
    change (h.recordFailure upstream idx cfg nowMs).passive v i ≠ _ at hne
    unfold recordFailure at hne
    split at hne
    . exact absurd rfl hne
    . obtain ⟨hpos, hreg⟩ := passive_modifyAt_ne hne
      exact ⟨congrArg some hpos, hreg⟩
  | recordSuccess upstream idx nowMs =>
    right
    obtain ⟨hpos, hreg⟩ := passive_modifyAt_ne hne
    exact ⟨congrArg some hpos, hreg⟩
  | recordProbe upstream idx addr ok unhealthyThreshold healthyThreshold =>
    refine absurd ?_ hne
    apply passive_recordProbe
  | incInFlight upstream addr =>
    refine absurd ?_ hne
    apply passive_modifyAddr
    intro p
    exact ⟨rfl, rfl⟩
  | decInFlight upstream addr =>
    refine absurd ?_ hne
    apply passive_modifyAddr
    intro p
    exact ⟨rfl, rfl⟩

end HealthRegistry

def Stage.records (stage : Stage) : Option Nat :=
  match stage with
  | .record idx _ => some idx
  | .accept idx => some idx
  | _ => none

namespace Request

variable {γ ω : Type}

def Aligned (h : HealthRegistry) (r : Request γ ω) (idx : Nat) : Prop :=
  ∀ a ∈ (h.registered r.up.name)[idx]?, r.addr idx = some a

def Located (h : HealthRegistry) (r : Request γ ω) (idx : Nat) : Prop :=
  r.Aligned h idx
    ∧ ((h.registered r.up.name)[idx]? = none → ∀ a ∈ r.addr idx, a ∉ h.registered r.up.name)

def PositionsHold (h : HealthRegistry) (r : Request γ ω) : Prop :=
  (∀ idx ∈ r.stage.records, r.Aligned h idx)
    ∧ ∀ idx < r.up.peers.length, r.tests idx = true → r.Located h idx

instance (h : HealthRegistry) (r : Request γ ω) (idx : Nat) : Decidable (r.Aligned h idx) :=
  inferInstanceAs (Decidable (∀ a ∈ (h.registered r.up.name)[idx]?, r.addr idx = some a))

instance (h : HealthRegistry) (r : Request γ ω) (idx : Nat) : Decidable (r.Located h idx) :=
  inferInstanceAs (Decidable (_ ∧ ((h.registered r.up.name)[idx]? = none →
    ∀ a ∈ r.addr idx, a ∉ h.registered r.up.name)))

instance (h : HealthRegistry) (r : Request γ ω) : Decidable (r.PositionsHold h) :=
  inferInstanceAs (Decidable ((∀ idx ∈ r.stage.records, r.Aligned h idx)
    ∧ ∀ idx < r.up.peers.length, r.tests idx = true → r.Located h idx))

structure Attributed (h h' : HealthRegistry) (r r' : Request γ ω) (x : Input) : Prop where
  records : ∀ v i, h'.passive v i ≠ h.passive v i →
    v = r.up.name ∧ ∃ idx a, r.stage.records = some idx ∧ r.addr idx = some a
      ∧ (h.registered v)[i]? = some a
  tests : ∀ idx a nowMs, r.tests idx = true → r.addr idx = some a →
    h.ReadsStateOf r.up.name a nowMs (h.isHealthy r.up.name idx nowMs)
  takes : ∀ idx ∈ r'.stage.indices, idx ∉ r.stage.indices →
    ∃ nowMs, x = .tick nowMs ∧ r.tests idx = true ∧ h.isHealthy r.up.name idx nowMs = true

variable {s : AppState ω} {r : Request γ ω} {x : Input} {y : AppState ω × Request γ ω}

theorem op_records {op : HealthOp} (hop : r.op x = some op)
    : (∀ v addrs, op ≠ .register v addrs)
      ∧ op.records = r.stage.records.map fun idx => (r.up.name, idx) := by
  unfold Request.op at hop
  split at hop
  . next hstage =>
    obtain ⟨a, -, rfl⟩ := Option.map_eq_some_iff.mp hop
    simp [hstage, HealthOp.records, Stage.records]
  . next hstage =>
    cases hop
    simp [hstage, HealthOp.records, Stage.records]
  . next hstage =>
    cases hop
    simp [hstage, HealthOp.records, Stage.records]
  . next hstage =>
    obtain ⟨a, -, rfl⟩ := Option.map_eq_some_iff.mp hop
    simp [hstage, HealthOp.records, Stage.records]
  . next hstage =>
    cases hop
    simp [hstage, HealthOp.records, Stage.records]
  . cases hop

theorem inProgress_of_records {idx : Nat} (h : r.stage.records = some idx)
    : r.inProgress = true ∧ idx ∈ r.stage.indices := by
  unfold Stage.records at h
  split at h
  . next hstage =>
    cases h
    simp [inProgress, hstage, Stage.indices]
  . next hstage =>
    cases h
    simp [inProgress, hstage, Stage.indices]
  . cases h

theorem inProgress_of_tests {idx : Nat} (h : r.tests idx = true) : r.inProgress = true := by
  unfold tests at h
  split at h
  . next hstage => simp [inProgress, hstage]
  . next hstage => simp [inProgress, hstage]
  . cases h

theorem registers_eq_none (v : String) : ((r.op x).bind fun op => op.registers v) = none := by
  rw [Option.bind_eq_none_iff]
  intro op hop
  obtain ⟨hreload, -⟩ := op_records hop
  unfold HealthOp.registers
  split
  . exact absurd rfl (hreload _ _)
  . rfl

theorem records_of_positionsHold (hact : r.act s x = some y) (hpos : r.PositionsHold s.health)
    {v : String} {i : Nat} (hne : y.1.health.passive v i ≠ s.health.passive v i)
    : v = r.up.name ∧ ∃ idx a, r.stage.records = some idx ∧ r.addr idx = some a
      ∧ (s.health.registered v)[i]? = some a := by
  rw [(act_spec hact).health] at hne
  cases hop : r.op x with
  | none =>
    rw [hop] at hne
    exact absurd rfl hne
  | some op =>
    rw [hop] at hne
    obtain ⟨hreload, hrecords⟩ := op_records hop
    obtain ⟨addrs, rfl⟩ | ⟨hpos', a, ha⟩ := HealthRegistry.passive_exec hne
    . exact absurd rfl (hreload v addrs)
    . rw [hpos'] at hrecords
      obtain ⟨idx, hidx, heq⟩ := Option.map_eq_some_iff.mp hrecords.symm
      cases heq
      exact ⟨rfl, i, a, hidx, hpos.1 i hidx a ha, ha⟩

theorem tests_of_positionsHold (hpos : r.PositionsHold s.health) {idx : Nat} {a : SocketAddr}
    (htests : r.tests idx = true) (haddr : r.addr idx = some a) (nowMs : Nat)
    : s.health.ReadsStateOf r.up.name a nowMs (s.health.isHealthy r.up.name idx nowMs) := by
  have hlt : idx < r.up.peers.length := by
    unfold addr at haddr
    obtain ⟨peer, hpeer, -⟩ := Option.map_eq_some_iff.mp haddr
    exact (List.getElem?_eq_some_iff.mp hpeer).1
  have hlocated := hpos.2 idx hlt htests
  rw [HealthRegistry.isHealthy_eq]
  cases hslot : s.health.slot r.up.name idx with
  | none =>
    right
    have hnone : (s.health.registered r.up.name)[idx]? = none := by
      rw [← HealthRegistry.map_fst_slot, hslot]
      rfl
    exact ⟨hlocated.2 hnone a haddr, rfl⟩
  | some z =>
    obtain ⟨b, p⟩ := z
    left
    have hb := hlocated.1 b (HealthRegistry.slot_registered hslot)
    rw [haddr] at hb
    cases hb
    exact ⟨idx, p, hslot, rfl⟩

theorem attributed_of_positionsHold (hact : r.act s x = some y) (hpos : r.PositionsHold s.health)
    : Attributed s.health y.1.health r y.2 x where
  records := by
    intro v i hne
    exact records_of_positionsHold hact hpos hne
  tests := by
    intro idx a nowMs htests haddr
    exact tests_of_positionsHold hpos htests haddr nowMs
  takes := by
    intro idx hidx hnew
    obtain hold | ⟨nowMs, hx, htests, hselectable⟩ := act_indices hact hidx
    . exact absurd hold hnew
    . exact ⟨nowMs, hx, htests, hselectable.1⟩

end Request

def Task.PositionsHold {γ ω : Type} (h : HealthRegistry) (t : Task γ ω) : Prop :=
  ∀ r ∈ t.request?, r.PositionsHold h

instance {γ ω : Type} (h : HealthRegistry) (t : Task γ ω) : Decidable (t.PositionsHold h) :=
  inferInstanceAs (Decidable (∀ r ∈ t.request?, r.PositionsHold h))

namespace Server

variable {γ ω : Type}

def PositionsHold (p : Server γ ω) (e : Pool.Event (Arrival γ ω) Input) : Prop :=
  match e with
  | .spawn _ => True
  | .step i _ => ∀ t ∈ p.threads[i]?, t.PositionsHold p.shared.health

instance (p : Server γ ω) (e : Pool.Event (Arrival γ ω) Input) : Decidable (p.PositionsHold e) :=
  match e with
  | .spawn _ => isTrue trivial
  | .step i _ => inferInstanceAs (Decidable (∀ t ∈ p.threads[i]?, t.PositionsHold p.shared.health))

def Attributes (p : Server γ ω) (e : Pool.Event (Arrival γ ω) Input) (q : Server γ ω) : Prop :=
  match e with
  | .spawn _ => True
  | .step i x =>
    ∀ r, p.threads[i]? = some (.request r) →
      ∃ r', q.threads[i]? = some (.request r')
        ∧ Request.Attributed p.shared.health q.shared.health r r' x

theorem attributes_of_positionsHold {p q : Server γ ω} {e : Pool.Event (Arrival γ ω) Input}
    (hok : p.PositionsHold e) (hstep : step p e = some q)
    : p.Attributes e q := by
  obtain ⟨a, rfl, rfl⟩ | ⟨i, x, t, s, t', rfl, ht, hact, rfl⟩ := Pool.step_cases _ _ hstep
  . trivial
  . intro r hr
    cases ht.symm.trans hr
    obtain ⟨_, r', ⟨⟩, rfl, hact'⟩ | ⟨hnone, -⟩ := Task.act_cases hact
    . refine ⟨r', ?_, Request.attributed_of_positionsHold hact' (hok _ hr r rfl)⟩
      have hlt := (List.getElem?_eq_some_iff.mp hr).1
      simp [hlt]
    . cases hnone

theorem outcomes_attributed {world : World ω} {es : List (Pool.Event (Arrival γ ω) Input)}
    (hok : Machine.Guarded step PositionsHold (init world) es)
    : Machine.Along step Attributes (init world) es := by
  apply Machine.along_of_guarded
  . intro p e q hok hstep
    exact attributes_of_positionsHold hok hstep
  . exact hok

section places

def Placed (registered pinned : List SocketAddr) : Prop :=
  ∀ i < pinned.length, registered[i]? = pinned[i]?
    ∨ registered[i]? = none ∧ ∀ a ∈ pinned[i]?, a ∉ registered

/--
What a reload registers leaves the addresses of the requests in progress in place, and so does what is
registered already when a request is pinned to the runtime of an earlier one.
-/
def KeepsPlaces (p : Server γ ω) (e : Pool.Event (Arrival γ ω) Input) : Prop :=
  match e with
  | .spawn _ => True
  | .step i x =>
    ∀ t ∈ p.threads[i]?,
      (∀ r, .request r ∈ p.threads → r.inProgress = true →
        ∀ op ∈ t.op x, ∀ addrs ∈ op.registers r.up.name, Placed addrs r.up.addrs)
      ∧ ∀ u ∈ t.loads p.shared, Placed (p.shared.health.registered u.up.name) u.up.addrs

theorem located_of_placed {h : HealthRegistry} {r : Request γ ω} {idx : Nat}
    (hplaced : Placed (h.registered r.up.name) r.up.addrs) (hlt : idx < r.up.peers.length)
    : r.Located h idx := by
  have haddr : r.addr idx = r.up.addrs[idx]? := by
    unfold Request.addr Upstream.addrs
    rw [List.getElem?_map]
  have hlen : idx < r.up.addrs.length := by
    unfold Upstream.addrs
    rwa [List.length_map]
  unfold Request.Located Request.Aligned
  rw [haddr]
  obtain heq | ⟨hnone, hfree⟩ := hplaced idx hlen
  . rw [heq]
    refine ⟨fun a ha => ha, ?_⟩
    intro hnone
    rw [List.getElem?_eq_none_iff] at hnone
    omega
  . rw [hnone]
    exact ⟨nofun, fun _ => hfree⟩

structure InPlace (p : Server γ ω) : Prop where
  inRange : ∀ (j : Nat) t, p.threads[j]? = some t → t.InRange
  placed : ∀ (j : Nat) t, p.threads[j]? = some t → ∀ r ∈ t.request?, r.inProgress = true →
    Placed (p.shared.health.registered r.up.name) r.up.addrs

theorem positionsHold_of_inPlace {p : Server γ ω} {e : Pool.Event (Arrival γ ω) Input} (h : InPlace p)
    : p.PositionsHold e := by
  cases e with
  | spawn a => trivial
  | step i x =>
    intro t ht r hr
    constructor
    . intro idx hidx
      obtain ⟨hprogress, hmem⟩ := Request.inProgress_of_records hidx
      exact (located_of_placed (h.placed i t ht r hr hprogress) (h.inRange i t ht r hr idx hmem)).1
    . intro idx hlt htests
      exact located_of_placed (h.placed i t ht r hr (Request.inProgress_of_tests htests)) hlt

theorem registered_act {s s' : AppState ω} {t t' : Task γ ω} {x : Input}
    (hact : t.act s x = some (s', t')) (v : String)
    : s'.health.registered v = ((t.op x).bind fun op => op.registers v).getD (s.health.registered v) := by
  rw [Task.act_health hact]
  cases t.op x with
  | none => rfl
  | some op => apply HealthRegistry.registered_exec

theorem InPlace.act {p : Server γ ω} (h : InPlace p) {i : Nat} {x : Input} {t t' : Task γ ω}
    {s : AppState ω} (ht : p.threads[i]? = some t) (hact : t.act p.shared x = some (s, t'))
    (hok : p.KeepsPlaces (.step i x))
    : ∀ (j : Nat) u, (p.threads.set i t')[j]? = some u → ∀ r ∈ u.request?, r.inProgress = true →
      Placed (s.health.registered r.up.name) r.up.addrs := by
  obtain ⟨hreload, hload⟩ := hok t ht
  apply Pool.forall_set
  . intro r' hr' hprogress
    rw [registered_act hact]
    obtain ⟨r, _, rfl, rfl, hact'⟩ | ⟨-, hfresh, -, -⟩ := Task.act_cases hact
    . cases hr'
      have hnone : (((Task.request r).op x).bind fun op => op.registers r'.up.name) = none :=
        Request.registers_eq_none _
      rw [hnone, (Request.act_spec hact').up]
      exact h.placed i _ ht r rfl (Request.inProgress_of_act hact')
    . obtain ⟨u, hu, hup⟩ := (hfresh r' hr').up
      rw [Task.op_of_loads hu, hup]
      exact hload u hu
  . intro j u hne hu r hr hprogress
    rw [registered_act hact]
    cases hregisters : (t.op x).bind fun op => op.registers r.up.name with
    | none => exact h.placed j u hu r hr hprogress
    | some addrs =>
      obtain ⟨op, hop, haddrs⟩ := Option.bind_eq_some_iff.mp hregisters
      apply hreload r _ hprogress op hop addrs haddrs
      rw [← Task.eq_request hr]
      exact List.mem_of_getElem? hu

theorem InPlace.step {p q : Server γ ω} {e : Pool.Event (Arrival γ ω) Input} (h : InPlace p)
    (hok : p.KeepsPlaces e) (hstep : step p e = some q)
    : InPlace q where
  inRange := inRange_step h.inRange hstep
  placed := by
    obtain ⟨a, rfl, rfl⟩ | ⟨i, x, t, s, t', rfl, ht, hact, rfl⟩ := Pool.step_cases _ _ hstep
    . apply Pool.forall_concat
      . intro r hr
        cases a <;> cases hr
      . exact h.placed
    . exact h.act ht hact hok

theorem positionsHold_of_keepsPlaces {world : World ω} {es : List (Pool.Event (Arrival γ ω) Input)}
    (hok : Machine.Guarded step KeepsPlaces (init world) es)
    : Machine.Guarded step PositionsHold (init world) es := by
  apply Machine.Guarded.of_inv (I := InPlace)
  . intro p e q h hok hstep
    exact h.step hok hstep
  . intro p e h _
    exact positionsHold_of_inPlace h
  . constructor
    . intro j t ht
      cases ht
    . intro j t ht
      cases ht
  . exact hok

end places

section runs

def tertiary : SocketAddr := { ip := .v4 0x0a000003, port := 80 }

def configOf (addrs : List SocketAddr) : Config where
  upstreams := [{ name := "u", retries := 1, peers := addrs.map fun a => { addr := a } }]
  routes := [{ pathPrefix := "/", upstream := "u" }]

def reloadedRun (addrs : List SocketAddr) : List (Pool.Event (Arrival Unit Unit) Input) :=
  upAndPinned ++ attemptSteps ++ [.spawn (.reload (configOf addrs) 2), .step 2 (.tick 5),
    .step 1 (.outcome (.failed .connect))]

theorem reloadedRun_attributed
    : Machine.Along step Attributes (init idleWorld)
        (reloadedRun [primary, secondary, tertiary] ++ [.step 1 (.tick 6), .step 1 (.tick 7)]
          ++ attemptSteps) :=
  outcomes_attributed (by decide +kernel)

def recordedAddr (p : Server Unit Unit) (i : Nat) : Option SocketAddr :=
  (p.threads[i]?.bind Task.request?).bind fun r => r.stage.records.bind r.addr

theorem reloadedRun_misattributed
    : ¬Machine.Along step Attributes (init idleWorld)
        (reloadedRun [secondary, primary] ++ [.step 1 (.tick 6)]) := by
  have hrun : ((Machine.run step (init idleWorld) (reloadedRun [secondary, primary])).bind fun p =>
        (step p (.step 1 (.tick 6))).map fun q =>
          (recordedAddr p 1, (p.shared.health.registered "u")[0]?,
            decide (q.shared.health.passive "u" 0 = p.shared.health.passive "u" 0)))
      = some (some primary, some secondary, false) := by
    decide +kernel
  obtain ⟨p, hp, hq⟩ := Option.bind_eq_some_iff.mp hrun
  obtain ⟨q, hstep, heq⟩ := Option.map_eq_some_iff.mp hq
  simp only [Prod.mk.injEq, decide_eq_false_iff_not] at heq
  obtain ⟨haddr, hreg, hpassive⟩ := heq
  obtain ⟨r, hr, haddr⟩ := Option.bind_eq_some_iff.mp haddr
  obtain ⟨t, ht, hr⟩ := Option.bind_eq_some_iff.mp hr
  intro halong
  cases t with
  | request r' =>
    cases hr
    obtain ⟨_, -, hattributed⟩ := halong.of_run hp hstep r ht
    obtain ⟨-, idx, a, hidx, ha, hreg'⟩ := hattributed.records "u" 0 hpassive
    rw [hidx, Option.bind_some, ha] at haddr
    rw [hreg] at hreg'
    cases haddr
    revert hreg'
    decide
  | arriving | reload | probe | stopped => cases hr

end runs

end Server

end OpenRusty
