import OpenRusty.Proxy.Health.Active
import OpenRusty.Proxy.Health.CallsLemmas

/-!
This module contains the invariants of the calls on the health registry over whole runs: the lock of the map
is held for one task, the lock of a slot for the task that is inside, and what a reload has copied is what
it will be once the sections are over.
-/

namespace OpenRusty

namespace HealthTask

variable {s s' : SharedHealth} {t t' : HealthTask}

theorem prefix_modify {l xs : List PeerHealth} {i : Nat} (h : l <+: xs) (hi : l.length ≤ i)
    (f : PeerHealth → PeerHealth)
    : l <+: xs.modify i f := by
  rw [List.prefix_iff_getElem?] at *
  intro j hj
  have hne : i ≠ j := by omega
  rw [List.getElem?_modify_ne f xs hne]
  exact h j hj

section sections

variable {upstream : String} {idx b : Nat} {health : PeerHealth} {c : Copying}

theorem sound_entered (hs : s.Sound) (hlookup : s.upstreams.lookup upstream = some b)
    (hidx : s.copied upstream ≤ idx) (hslot : s.slot b idx = some { health }) (todo : SlotSection)
    : (s.setSlot b idx { health, held := some todo }).Sound := by
  apply hs.congr
  . rfl
  . apply SharedHealth.length_setSlot
  . intro c hheld
    rw [SharedHealth.held_setSlot] at hheld
    have hcopied := hs.copied c hheld
    rw [SharedHealth.view_setSlot s (f := todo.finish)]
    . split
      . next hb =>
        have hc := hs.distinct c.upstream upstream b hb hlookup
        simp only [SharedHealth.copied, hheld, hc, if_true] at hidx
        cases hview : s.view c.upstream with
        | none => simpa [hview] using hcopied
        | some slots =>
          rw [hview] at hcopied
          exact prefix_modify hcopied hidx todo.finish
      . exact hcopied
    . intro old hold
      rw [hslot] at hold
      cases hold
      rfl

theorem sound_cloning (hs : s.Sound) (hslot : s.slot b c.copied.length = some { health })
    : (s.setSlot b c.copied.length { health, held := some .cloning }).Sound := by
  apply hs.congr
  . rfl
  . apply SharedHealth.length_setSlot
  . intro c' hc
    have hview : (s.setSlot b c.copied.length { health, held := some .cloning }).view = s.view :=
      SharedHealth.view_setSlot_of_slot hslot rfl
    rw [hview]
    exact hs.copied c' hc

theorem sound_cloned (hs : s.Sound) (hheld : s.held = some (.copying c))
    (hb : s.upstreams.lookup c.upstream = some b)
    (hslot : s.slot b c.copied.length = some { health, held := some .cloning })
    : SharedHealth.Sound { s.setSlot b c.copied.length { health } with
        held := some (.copying { c with copied := c.copied ++ [health] }) } := by
  apply hs.congr
  . rfl
  . apply SharedHealth.length_setSlot
  . intro c' hc
    cases hc
    have hview : (s.setSlot b c.copied.length { health }).view = s.view :=
      SharedHealth.view_setSlot_of_slot hslot rfl
    change _ <+: ((s.setSlot b c.copied.length { health }).view c.upstream).elim [] PeerSlots.peers
    rw [hview]
    exact SharedHealth.lookup_prefix_concat hb hslot (hs.copied c hheld)

end sections

theorem sound_of_act {x : Unit} (hs : s.Sound) (hok : t.Undisturbed s) (h : act s t x = some (s', t'))
    : s'.Sound := by
  rcases acts_of_act h with ⟨-, hacts⟩
  rcases t with ⟨call, progress⟩
  dsimp only at hacts
  generalize t'.progress = progress' at hacts
  cases hacts with
  | skipped hcall hcfg => exact hs
  | missed hcall hlookup => exact hs
  | found hcall hlookup => exact hs
  | @entered upstream idx todo b health hcall hslot =>
    unfold Undisturbed at hok
    simp only [hcall] at hok
    exact sound_entered hs hok.1 hok.2 hslot todo
  | advanced hcall hslot hstep =>
    apply hs.congr
    . rfl
    . apply SharedHealth.length_setSlot
    . intro c hheld
      rw [SharedHealth.view_setSlot_of_slot hslot (SlotSection.finish_of_step hstep)]
      exact hs.copied c hheld
  | moving hcall hheld =>
    apply hs.congr
    . rfl
    . rfl
    . nofun
  | moved hcall hheld =>
    apply hs.congr
    . apply SharedHealth.upstreams_modifyAddr
    . apply SharedHealth.length_modifyAddr
    . nofun
  | copying hcall hheld =>
    apply hs.congr
    . rfl
    . rfl
    . intro c hc
      cases hc
      apply List.nil_prefix
  | cloning hcall hheld hb hslot => exact sound_cloning hs hslot
  | cloned hcall hheld hb hslot => exact sound_cloned hs hheld hb hslot
  | installed hcall hheld hdone => exact hs.install _

theorem map_of_acts {call : HealthCall} {progress progress' : HealthProgress}
    (h : Acts s call progress s' progress')
    : (progress ≠ .locked ∧ progress' ≠ .locked ∧ s'.held = s.held)
      ∨ (progress ≠ .locked ∧ progress' = .locked ∧ s.held = none ∧ s'.held.isSome ∧ call.Holds s')
      ∨ (progress = .locked ∧ progress' = .locked ∧ s'.held.isSome ∧ (call.Holds s → call.Holds s'))
      ∨ (progress = .locked ∧ progress' ≠ .locked ∧ s'.held = none) := by
  cases h with
  | skipped hcall hcfg => exact .inl ⟨nofun, nofun, rfl⟩
  | missed hcall hlookup => exact .inl ⟨nofun, nofun, rfl⟩
  | found hcall hlookup => exact .inl ⟨nofun, nofun, rfl⟩
  | entered hcall hslot => exact .inl ⟨nofun, nofun, rfl⟩
  | @advanced _ _ _ _ _ _ _ held hcall hslot hstep =>
    left
    refine ⟨nofun, ?_, rfl⟩
    cases held <;> nofun
  | moving hcall hheld =>
    right
    left
    refine ⟨nofun, rfl, hheld, rfl, ?_⟩
    cases call with
    | register upstream addrs => cases hcall
    | _ => rfl
  | moved hcall hheld => exact .inr (.inr (.inr ⟨rfl, nofun, rfl⟩))
  | copying hcall hheld =>
    right
    left
    subst hcall
    exact ⟨nofun, rfl, hheld, rfl, [], rfl⟩
  | cloning hcall hheld hb hslot =>
    right
    right
    left
    refine ⟨rfl, rfl, ?_, id⟩
    rw [SharedHealth.held_setSlot, hheld]
    rfl
  | cloned hcall hheld hb hslot =>
    right
    right
    left
    refine ⟨rfl, rfl, rfl, ?_⟩
    subst hcall
    rintro ⟨copied, hheld'⟩
    rw [hheld] at hheld'
    cases hheld'
    exact ⟨_, rfl⟩
  | installed hcall hheld hdone => exact .inr (.inr (.inr ⟨rfl, nofun, rfl⟩))

theorem active_of_acts {call : HealthCall} {progress progress' : HealthProgress}
    (h : Acts s call progress s' progress')
    : s'.active = s.active := by
  cases h with
  | moved hcall hheld =>
    simp only [SharedHealth.modifyAddr]
    split <;> rfl
  | _ => rfl

def Within (b idx : Nat) (call : HealthCall) (progress : HealthProgress) : Prop :=
  progress = .inside b ∧ call.outcome.map (fun o => o.2.1) = some idx

theorem slot_of_acts {call : HealthCall} {progress progress' : HealthProgress}
    (h : Acts s call progress s' progress') {b idx : Nat} {slot : SharedSlot}
    (hslot : s'.slot b idx = some slot)
    : slot.held = none ∨ slot.held = some .cloning ∨ Within b idx call progress'
      ∨ ∃ old, s.slot b idx = some old ∧ old.held = slot.held ∧ ¬Within b idx call progress := by
  have hset {b' idx' : Nat} {new : SharedSlot} (hslot : (s.setSlot b' idx' new).slot b idx = some slot)
      : (b' = b ∧ idx' = idx ∧ slot = new) ∨ (¬(b' = b ∧ idx' = idx) ∧ s.slot b idx = some slot) := by
    rw [SharedHealth.slot_setSlot] at hslot
    split at hslot
    . next heq =>
      rw [Option.map_eq_some_iff] at hslot
      rcases hslot with ⟨old, -, rfl⟩
      exact .inl ⟨heq.1, heq.2, rfl⟩
    . next hne => exact .inr ⟨hne, hslot⟩
  cases h with
  | skipped hcall hcfg => exact .inr (.inr (.inr ⟨slot, hslot, rfl, nofun⟩))
  | missed hcall hlookup => exact .inr (.inr (.inr ⟨slot, hslot, rfl, nofun⟩))
  | found hcall hlookup => exact .inr (.inr (.inr ⟨slot, hslot, rfl, nofun⟩))
  | entered hcall hold =>
    rcases hset hslot with ⟨rfl, rfl, rfl⟩ | ⟨-, hslot⟩
    . exact .inr (.inr (.inl ⟨rfl, by rw [hcall]; rfl⟩))
    . exact .inr (.inr (.inr ⟨slot, hslot, rfl, nofun⟩))
  | @advanced _ idx' _ _ b' _ _ held hcall hold hstep =>
    rcases hset hslot with ⟨rfl, rfl, rfl⟩ | ⟨hne, hslot⟩
    . cases held with
      | none => exact .inl rfl
      | some todo => exact .inr (.inr (.inl ⟨rfl, by rw [hcall]; rfl⟩))
    . refine .inr (.inr (.inr ⟨slot, hslot, rfl, ?_⟩))
      rintro ⟨hb, hidx⟩
      rw [hcall] at hidx
      cases hb
      cases hidx
      exact hne ⟨rfl, rfl⟩
  | moving hcall hheld => exact .inr (.inr (.inr ⟨slot, hslot, rfl, nofun⟩))
  | moved hcall hheld =>
    rcases SharedHealth.slot_modifyAddr hslot with ⟨old, hold, hheld'⟩
    exact .inr (.inr (.inr ⟨old, hold, hheld', nofun⟩))
  | copying hcall hheld => exact .inr (.inr (.inr ⟨slot, hslot, rfl, nofun⟩))
  | cloning hcall hheld hb hold =>
    rcases hset hslot with ⟨-, -, rfl⟩ | ⟨-, hslot⟩
    . exact .inr (.inl rfl)
    . exact .inr (.inr (.inr ⟨slot, hslot, rfl, nofun⟩))
  | cloned hcall hheld hb hold =>
    rcases hset hslot with ⟨-, -, rfl⟩ | ⟨-, hslot⟩
    . exact .inl rfl
    . exact .inr (.inr (.inr ⟨slot, hslot, rfl, nofun⟩))
  | installed hcall hheld hdone =>
    rcases SharedHealth.slot_install hslot with hslot | hnone
    . exact .inr (.inr (.inr ⟨slot, hslot, rfl, nofun⟩))
    . exact .inl hnone

end HealthTask

namespace HealthCalls

def locks (t : HealthTask) : Nat := if t.progress = .locked then 1 else 0

structure Ordered (active : AList fun _ : String × SocketAddr => ActivePeer) (p : HealthCalls) : Prop where
  sound : p.shared.Sound
  active_eq : p.shared.active = active
  one : p.sum locks = if p.shared.held.isSome then 1 else 0
  holds : ∀ (i : Nat) t, p.threads[i]? = some t → t.progress = .locked → t.call.Holds p.shared

def Undisturbed (p : HealthCalls) (e : Event) : Prop :=
  match e with
  | .spawn _ => True
  | .step i _ => ∀ t ∈ p.threads[i]?, t.Undisturbed p.shared

instance (p : HealthCalls) (e : Event) : Decidable (p.Undisturbed e) :=
  match e with
  | .spawn _ => inferInstanceAs (Decidable True)
  | .step i _ => inferInstanceAs (Decidable (∀ t ∈ p.threads[i]?, t.Undisturbed p.shared))

variable {active : AList fun _ : String × SocketAddr => ActivePeer} {p q : HealthCalls}

theorem ordered_of_act (h : p.Ordered active) {i : Nat} {t t' : HealthTask} {x : Unit} {s : SharedHealth}
    (ht : p.threads[i]? = some t) (hok : t.Undisturbed p.shared)
    (hact : HealthTask.act p.shared t x = some (s, t'))
    : Ordered active { shared := s, threads := p.threads.set i t' } := by
  rcases HealthTask.acts_of_act hact with ⟨hcall, hacts⟩
  have hmap := HealthTask.map_of_acts hacts
  have hsum := Pool.sum_set locks p ht s t'
  have hone := h.one
  have hself := Pool.le_sum locks p ht
  have hlocks (u : HealthTask) : u.progress = .locked → locks u = 1 := fun hu => by simp [locks, hu]
  have hfree (u : HealthTask) : u.progress ≠ .locked → locks u = 0 := fun hu => by simp [locks, hu]
  refine ⟨HealthTask.sound_of_act h.sound hok hact, ?_, ?_, ?_⟩
  . rw [← h.active_eq]
    exact HealthTask.active_of_acts hacts
  . rcases hmap with ⟨hold, hnew, hheld⟩ | ⟨hold, hnew, hnone, hheld, -⟩ | ⟨hold, hnew, hheld, -⟩
      | ⟨hold, hnew, hheld⟩
    . dsimp only
      rw [hfree t hold, hfree t' hnew] at hsum
      rw [hheld, ← hone]
      omega
    . rw [hfree t hold, hlocks t' hnew] at hsum
      rw [hnone] at hone
      simp only [hheld, if_true]
      simp only [Option.isSome_none, Bool.false_eq_true, if_false] at hone
      omega
    . rw [hlocks t hold, hlocks t' hnew] at hsum
      rw [hlocks t hold] at hself
      simp only [hheld, if_true]
      split at hone <;> omega
    . rw [hlocks t hold, hfree t' hnew] at hsum
      rw [hlocks t hold] at hself
      simp only [hheld, Option.isSome_none, Bool.false_eq_true, if_false]
      split at hone <;> omega
  . intro j u hu hlocked
    dsimp only
    rcases Pool.getElem?_set_cases hu with ⟨rfl, rfl⟩ | ⟨hne, hu⟩
    . rw [hcall]
      rcases hmap with ⟨-, hnew, -⟩ | ⟨-, -, -, -, hholds⟩ | ⟨hold, -, -, hholds⟩ | ⟨-, hnew, -⟩
      . exact absurd hlocked hnew
      . exact hholds
      . exact hholds (h.holds j t ht hold)
      . exact absurd hlocked hnew
    -- The other one holds the lock, so this step can neither take it nor give it back.
    . have hother := Pool.le_sum locks p hu
      have hboth := Pool.add_le_sum locks p ht hu hne
      rw [hlocks u hlocked] at hother hboth
      have hholds := h.holds j u hu hlocked
      rcases hmap with ⟨-, -, hheld⟩ | ⟨-, -, hnone, -, -⟩ | ⟨hold, -, -, -⟩ | ⟨hold, -, -⟩
      . unfold HealthCall.Holds at *
        rw [hheld]
        exact hholds
      . rw [hnone] at hone
        simp only [Option.isSome_none, Bool.false_eq_true, if_false] at hone
        omega
      . rw [hlocks t hold] at hboth
        split at hone <;> omega
      . rw [hlocks t hold] at hboth
        split at hone <;> omega

theorem ordered_of_step (h : p.Ordered active) {e : Event} (hok : p.Undisturbed e)
    (hstep : step p e = some q)
    : q.Ordered active := by
  rcases Pool.step_cases _ _ hstep with ⟨call, rfl, rfl⟩ | ⟨i, x, t, s, t', rfl, ht, hact, rfl⟩
  . refine ⟨h.sound, h.active_eq, ?_, ?_⟩
    . rw [Pool.sum_spawn]
      exact h.one
    . apply Pool.forall_concat _ h.holds
      nofun
  . exact ordered_of_act h ht (hok t ht) hact

theorem ordered_start (active : AList fun _ : String × SocketAddr => ActivePeer)
    : (start active).Ordered active where
  sound := ⟨nofun, nofun, nofun⟩
  active_eq := rfl
  one := rfl
  holds := nofun

def Attended (p : HealthCalls) : Prop :=
  ∀ (b idx : Nat) slot, p.shared.slot b idx = some slot →
    slot.held = none ∨ slot.held = some .cloning
      ∨ ∃ (i : Nat) (t : HealthTask), p.threads[i]? = some t ∧ HealthTask.Within b idx t.call t.progress

theorem attended_of_step (h : p.Attended) {e : Event} (hstep : step p e = some q) : q.Attended := by
  intro b idx slot hslot
  rcases Pool.step_cases _ _ hstep with ⟨call, rfl, rfl⟩ | ⟨i, x, t, s, t', rfl, ht, hact, rfl⟩
  . rcases h b idx slot hslot with hnone | hcloning | ⟨i, t, ht, hwithin⟩
    . exact .inl hnone
    . exact .inr (.inl hcloning)
    . refine .inr (.inr ⟨i, t, ?_, hwithin⟩)
      dsimp only
      rw [List.getElem?_append_left (List.getElem?_eq_some_iff.mp ht).1]
      exact ht
  . have hlt := (List.getElem?_eq_some_iff.mp ht).1
    rcases HealthTask.acts_of_act hact with ⟨hcall, hacts⟩
    rcases HealthTask.slot_of_acts hacts hslot with
      hnone | hcloning | hwithin | ⟨old, hold, hheld, hnot⟩
    . exact .inl hnone
    . exact .inr (.inl hcloning)
    . refine .inr (.inr ⟨i, t', by simp [hlt], ?_⟩)
      rw [hcall]
      exact hwithin
    . rw [← hheld]
      rcases h b idx old hold with hnone | hcloning | ⟨j, u, hu, hwithin⟩
      . exact .inl hnone
      . exact .inr (.inl hcloning)
      . refine .inr (.inr ⟨j, u, ?_, hwithin⟩)
        by_cases hji : i = j
        . subst hji
          rw [ht] at hu
          cases hu
          exact absurd hwithin hnot
        . dsimp only
          rw [List.getElem?_set_ne hji]
          exact hu

def returned (p : HealthCalls) : Bool := p.threads.all fun t => decide (t.progress = .done)

theorem stored_of_returned (h : p.Attended) (hreturned : p.returned = true)
    : p.shared.stored = p.shared.view := by
  funext upstream
  unfold SharedHealth.stored SharedHealth.view SharedHealth.current
  cases p.shared.upstreams.lookup upstream with
  | none => rfl
  | some b =>
    rw [Option.bind_some]
    cases hblock : p.shared.blocks[b]? with
    | none => rfl
    | some block =>
      rw [Option.map_some, Option.map_some, Option.some.injEq, PeerSlots.ext_iff]
      refine ⟨rfl, ?_⟩
      apply List.map_congr_left
      intro slot hmem
      rcases List.getElem?_of_mem hmem with ⟨idx, hidx⟩
      have hslot : p.shared.slot b idx = some slot := by
        unfold SharedHealth.slot
        rw [hblock, Option.bind_some, hidx]
      unfold SharedSlot.view
      rcases h b idx slot hslot with hnone | hcloning | ⟨i, t, ht, hinside, -⟩
      . rw [hnone]
        rfl
      . rw [hcloning]
        rfl
      . exfalso
        have hdone := List.all_eq_true.mp hreturned t (List.mem_of_getElem? ht)
        rw [decide_eq_true_eq, hinside] at hdone
        cases hdone

def Reads (p : HealthCalls) (h : HealthRegistry) : Prop :=
  SharedHealth.Shows p.shared.active p.shared.view h
    ∧ (p.returned = true → ∀ upstream, p.shared.stored upstream = h.upstreams.lookup upstream)

theorem reads_of_shows (h : p.Attended) {r : HealthRegistry}
    (hshows : SharedHealth.Shows p.shared.active p.shared.view r)
    : p.Reads r := by
  refine ⟨hshows, ?_⟩
  intro hreturned upstream
  rw [stored_of_returned h hreturned, hshows.2]

def after (h : HealthRegistry) (order : List HealthCall) : HealthRegistry :=
  (order.map HealthCall.op).foldl HealthRegistry.exec h

theorem shows_of_replays {a b : String → Option PeerSlots} {order : List HealthCall}
    (hreplays : Replays (HealthCall.Step active) a order b) {h : HealthRegistry}
    (hshows : SharedHealth.Shows active a h)
    : SharedHealth.Shows active b (after h order) := by
  induction order generalizing a h with
  | nil =>
    cases hreplays
    exact hshows
  | cons call order ih =>
    rcases hreplays with ⟨m, hm, hrest⟩
    exact ih hrest (hm h hshows)

theorem linearized_of_run (h : p.Ordered active) {es : List Event}
    (hok : Machine.Guarded step Undisturbed p es) (hrun : Machine.run step p es = some q)
    : ∃ order, (p.effects HealthTask.effect ++ order).Perm (q.effects HealthTask.effect)
        ∧ ∀ r, SharedHealth.Shows active p.shared.view r →
          SharedHealth.Shows active q.shared.view (after r order) := by
  have hrun' : ∃ order, Replays (HealthCall.Step active) p.shared.view order q.shared.view
      ∧ (p.effects HealthTask.effect ++ order).Perm (q.effects HealthTask.effect) := by
    apply Pool.sequential_of_run SharedHealth.view (I := Ordered active) _ _ _ h hok hrun
    . intro call
      rfl
    . intro p e q h hok hstep
      exact ordered_of_step h hok hstep
    . intro p i x t s t' h hok ht hact
      rw [← h.active_eq]
      exact HealthTask.effect_of_act h.sound (h.holds i t ht) (hok t ht) hact
  rcases hrun' with ⟨order, hreplays, hperm⟩
  exact ⟨order, hperm, fun r hr => shows_of_replays hreplays hr⟩

theorem attended_of_run (h : p.Attended) {es : List Event} (hrun : Machine.run step p es = some q)
    : q.Attended :=
  Machine.inv_of_run_all (fun _ _ _ h hstep => attended_of_step h hstep) h hrun

theorem healthCalls_linearizable (active : AList fun _ : String × SocketAddr => ActivePeer)
    (es fs : List Event) {p q : HealthCalls}
    (hok : Machine.Guarded step Undisturbed (start active) (es ++ fs))
    (hes : Machine.run step (start active) es = some p) (hfs : Machine.run step p fs = some q)
    : ∃ order rest, order.Perm (p.effects HealthTask.effect)
        ∧ (order ++ rest).Perm (q.effects HealthTask.effect)
        ∧ p.Reads (after { HealthRegistry.new with active } order)
        ∧ q.Reads (after { HealthRegistry.new with active } (order ++ rest)) := by
  rcases hok.of_append with ⟨hok₁, hok₂⟩
  have hp : p.Ordered active :=
    Machine.inv_of_run (fun _ _ _ h hok hstep => ordered_of_step h hok hstep) (ordered_start active) hok₁ hes
  have hq : q.Ordered active :=
    Machine.inv_of_run (fun _ _ _ h hok hstep => ordered_of_step h hok hstep) hp (hok₂ p hes) hfs
  have hattended : (start active).Attended := nofun
  rcases linearized_of_run (ordered_start active) hok₁ hes with ⟨order, horder, hshows⟩
  rcases linearized_of_run hp (hok₂ p hes) hfs with ⟨rest, hrest, hshows'⟩
  have hp' : SharedHealth.Shows active p.shared.view (after { HealthRegistry.new with active } order) := by
    apply hshows
    exact ⟨rfl, fun _ => rfl⟩
  refine ⟨order, rest, horder, (horder.append_right rest).trans hrest, ?_, ?_⟩
  . apply reads_of_shows (attended_of_run hattended hes)
    rw [hp.active_eq]
    exact hp'
  . apply reads_of_shows (attended_of_run (attended_of_run hattended hes) hfs)
    rw [hq.active_eq]
    unfold after
    rw [List.map_append, List.foldl_append]
    exact hshows' _ hp'

theorem healthCalls_linearizable_waiting
    : let es : List Event := [.spawn (.register "api" [peerA, peerB]), .step 0 (), .step 0 ()]
      let fs : List Event := [.spawn (.recordFailure "api" 0 { maxFails := 1 } 500),
        .spawn (.register "api" [peerB, peerA]), .spawn (.incInFlight "api" peerA), .step 1 (), .step 2 (),
        .step 1 (), .step 1 (), .step 1 (), .step 1 (), .step 1 (), .step 2 (), .step 2 (), .step 2 (),
        .step 2 (), .step 2 (), .step 3 (), .step 3 ()]
      ∃ p q, Machine.run step (start ∅) es = some p ∧ Machine.run step p fs = some q
        ∧ q.returned = true
        ∧ (q.shared.stored "api").map PeerSlots.peers
          = some [{}, { downUntilMs := 10500, inFlight := 1, counters := { windowStartMs := 0 } }]
        ∧ ∃ order rest, order.Perm (p.effects HealthTask.effect)
          ∧ (order ++ rest).Perm (q.effects HealthTask.effect)
          ∧ p.Reads (after { HealthRegistry.new with active := ∅ } order)
          ∧ q.Reads (after { HealthRegistry.new with active := ∅ } (order ++ rest)) := by
  refine ⟨_, _, rfl, rfl, rfl, rfl, ?_⟩
  exact healthCalls_linearizable ∅
    [.spawn (.register "api" [peerA, peerB]), .step 0 (), .step 0 ()]
    [.spawn (.recordFailure "api" 0 { maxFails := 1 } 500),
      .spawn (.register "api" [peerB, peerA]), .spawn (.incInFlight "api" peerA), .step 1 (), .step 2 (),
      .step 1 (), .step 1 (), .step 1 (), .step 1 (), .step 1 (), .step 2 (), .step 2 (), .step 2 (),
      .step 2 (), .step 2 (), .step 3 (), .step 3 ()] (by decide) rfl rfl

theorem healthCalls_lost_failure
    : let es : List Event := [.spawn (.register "api" [peerA]), .step 0 (), .step 0 ()]
      let fs : List Event := [.spawn (.recordFailure "api" 0 {} 500), .spawn (.register "api" [peerA]),
        .step 1 (), .step 2 (), .step 2 (), .step 2 (), .step 2 (), .step 1 (), .step 1 (), .step 1 ()]
      ∃ p q, Machine.run step (start ∅) es = some p ∧ Machine.run step p fs = some q
        ∧ q.returned = true
        ∧ (q.shared.stored "api").map PeerSlots.peers = some [{}]
        ∧ ¬∃ order rest, order.Perm (p.effects HealthTask.effect)
          ∧ (order ++ rest).Perm (q.effects HealthTask.effect)
          ∧ p.Reads (after { HealthRegistry.new with active := ∅ } order)
          ∧ q.Reads (after { HealthRegistry.new with active := ∅ } (order ++ rest)) := by
  refine ⟨_, _, rfl, rfl, rfl, rfl, ?_⟩
  rintro ⟨order, rest, horder, hrest, -, hreads⟩
  have hstored := hreads.2 rfl "api"
  rcases List.perm_singleton.mp horder with rfl
  rcases List.perm_pair.mp hrest.cons_inv with rfl | rfl
  . have hpeers := congrArg (Option.map PeerSlots.peers) hstored
    revert hpeers
    decide
  . have hpeers := congrArg (Option.map PeerSlots.peers) hstored
    revert hpeers
    decide

end HealthCalls

end OpenRusty
