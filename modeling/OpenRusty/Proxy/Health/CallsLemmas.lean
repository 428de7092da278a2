import Mathlib.Data.List.Infix
import OpenRusty.Lib.Linearize
import OpenRusty.Proxy.Health.Calls

/-!
This module contains the proof that the calls on the health registry take effect one after the other, as
long as every outcome enters its slot while that is still the slot that the next reload copies.
-/

namespace OpenRusty

namespace SlotSection

def finish (todo : SlotSection) (p : PeerHealth) : PeerHealth :=
  match todo with
  | .counting cfg nowMs => p.recordFailure cfg nowMs
  | .marking downUntil => { p with counters := { p.counters with fails := 0 }, downUntilMs := downUntil }
  | .clearing => { p with counters := { p.counters with fails := 0 } }
  | .closing nowMs => p.recordSuccess nowMs
  | .unlocking => p
  | .cloning => p

theorem finish_of_step {todo : SlotSection} {p q : PeerHealth} {held : Option SlotSection}
    (h : todo.step p = some (q, held))
    : held.elim q (·.finish q) = todo.finish p := by
  cases todo with
  | counting cfg nowMs =>
    unfold finish PeerHealth.recordFailure
    simp only [step] at h
    split at h
    . next downUntil heq =>
      cases h
      simp only [heq]
      rfl
    . next heq =>
      cases h
      simp only [heq]
      rfl
  | cloning => cases h
  | _ =>
    cases h
    rfl

theorem finish_inFlight (todo : SlotSection) (p : PeerHealth) (f : Nat → Nat)
    : todo.finish { p with inFlight := f p.inFlight }
      = { todo.finish p with inFlight := f (todo.finish p).inFlight } := by
  cases todo with
  | counting cfg nowMs =>
    unfold finish PeerHealth.recordFailure
    dsimp only
    generalize evaluateFailure _ _ _ _ = downUntil
    cases downUntil <;> rfl
  | _ => rfl

end SlotSection

namespace PeerSlots

theorem ext_iff {a b : PeerSlots} : a = b ↔ a.addrs = b.addrs ∧ a.peers = b.peers := by
  cases a
  cases b
  simp

theorem modify_id (slots : PeerSlots) (idx : Nat) : slots.modify idx id = slots := by
  simp [modify]

theorem modify_of_length_le {slots : PeerSlots} {idx : Nat} (h : slots.peers.length ≤ idx)
    (f : PeerHealth → PeerHealth)
    : slots.modify idx f = slots := by
  simp [modify, List.modify_eq_self h]

def modifyAddr (slots : PeerSlots) (addr : SocketAddr) (f : PeerHealth → PeerHealth) : PeerSlots :=
  (slots.addrSlot addr).elim slots fun pos => slots.modify pos f

end PeerSlots

def SharedSlot.view (slot : SharedSlot) : PeerHealth :=
  slot.held.elim slot.health fun todo => todo.finish slot.health

namespace SharedBlock

def view (block : SharedBlock) : PeerSlots :=
  {
    addrs := block.addrs
    peers := block.slots.map SharedSlot.view
    length_eq := by simp [block.length_eq]
  }

def stored (block : SharedBlock) : PeerSlots :=
  {
    addrs := block.addrs
    peers := block.slots.map SharedSlot.health
    length_eq := by simp [block.length_eq]
  }

theorem view_modify {block : SharedBlock} {idx : Nat} {f : SharedSlot → SharedSlot}
    {g : PeerHealth → PeerHealth}
    (h : ∀ slot, block.slots[idx]? = some slot → (f slot).view = g slot.view)
    : (block.modify idx f).view = block.view.modify idx g := by
  rw [PeerSlots.ext_iff]
  refine ⟨rfl, ?_⟩
  apply List.ext_getElem?
  intro i
  simp only [view, modify, PeerSlots.modify, List.getElem?_map, List.getElem?_modify]
  by_cases hi : idx = i
  . subst hi
    cases hslot : block.slots[idx]? with
    | none => rfl
    | some slot => simp [h slot hslot]
  . simp [hi]

theorem view_modifyAddr (block : SharedBlock) (addr : SocketAddr) {f : PeerHealth → PeerHealth}
    (hf : ∀ (todo : SlotSection) p, todo.finish (f p) = f (todo.finish p))
    : (block.modifyAddr addr f).view = block.view.modifyAddr addr f := by
  unfold modifyAddr PeerSlots.modifyAddr PeerSlots.addrSlot
  change _ = Option.elim (block.addrs.findIdx? fun a => a == addr) _ _
  cases block.addrs.findIdx? fun a => a == addr with
  | none => rfl
  | some pos =>
    apply view_modify
    intro slot _
    unfold SharedSlot.view
    cases slot.held with
    | none => rfl
    | some todo => exact hf todo slot.health

end SharedBlock

namespace SharedHealth

def view (s : SharedHealth) (upstream : String) : Option PeerSlots :=
  (s.current upstream).map SharedBlock.view

theorem view_eq_of_lookup {s : SharedHealth} {upstream : String} {b : Nat}
    (h : s.upstreams.lookup upstream = some b)
    : s.view upstream = s.blocks[b]?.map SharedBlock.view := by
  simp [view, current, h]

theorem view_setSlot (s : SharedHealth) {b idx : Nat} {slot : SharedSlot} {f : PeerHealth → PeerHealth}
    (h : ∀ old, s.slot b idx = some old → slot.view = f old.view) (v : String)
    : (s.setSlot b idx slot).view v
      = if s.upstreams.lookup v = some b then (s.view v).map (·.modify idx f) else s.view v := by
  unfold view current setSlot
  cases s.upstreams.lookup v with
  | none => rfl
  | some b' =>
    simp only [Option.bind_some, List.getElem?_modify]
    by_cases hb : b = b'
    . subst hb
      rw [if_pos rfl]
      cases hblock : s.blocks[b]? with
      | none => simp
      | some block =>
        simp only [Option.map_some, Option.map_eq_map, if_true, Option.some.injEq]
        apply SharedBlock.view_modify
        intro old hold
        apply h
        simp [SharedHealth.slot, hblock, hold]
    . rw [if_neg (by simpa using Ne.symm hb)]
      simp [hb]

theorem view_setSlot_of_slot {s : SharedHealth} {b idx : Nat} {old slot : SharedSlot}
    (hslot : s.slot b idx = some old) (h : slot.view = old.view)
    : (s.setSlot b idx slot).view = s.view := by
  funext v
  rw [view_setSlot s (f := id)]
  . have hid : (fun slots : PeerSlots => slots.modify idx id) = id := by
      funext slots
      exact slots.modify_id idx
    rw [hid, Option.map_id]
    simp
  . intro old' hold
    rw [hslot] at hold
    cases hold
    exact h

theorem map_modify_of_lookup_eq_none {s : SharedHealth} {upstream : String} {idx : Nat}
    (h : s.lookup upstream idx = none) (f : PeerHealth → PeerHealth)
    : (s.view upstream).map (·.modify idx f) = s.view upstream := by
  cases hb : s.upstreams.lookup upstream with
  | none => simp [view, current, hb]
  | some b =>
    rw [view_eq_of_lookup hb]
    cases hblock : s.blocks[b]? with
    | none => rfl
    | some block =>
      rw [Option.map_some, Option.map_some, PeerSlots.modify_of_length_le]
      simpa [lookup, hb, hblock, SharedBlock.view] using h

def stored (s : SharedHealth) (upstream : String) : Option PeerSlots :=
  (s.current upstream).map SharedBlock.stored

def Shows (active : AList fun _ : String × SocketAddr => ActivePeer) (a : String → Option PeerSlots)
    (h : HealthRegistry)
    : Prop :=
  h.active = active ∧ ∀ upstream, h.upstreams.lookup upstream = a upstream

end SharedHealth

namespace SharedHealth.Shows

variable {active : AList fun _ : String × SocketAddr => ActivePeer} {a a' : String → Option PeerSlots}
  {h : HealthRegistry}

theorem insert (hshows : Shows active a h) {upstream : String} {slots : PeerSlots}
    (ha' : ∀ v, a' v = if v = upstream then some slots else a v)
    : Shows active a' { h with upstreams := h.upstreams.insert upstream slots } := by
  refine ⟨hshows.1, ?_⟩
  intro v
  rw [ha']
  split
  . next heq =>
    rw [heq]
    apply AList.lookup_insert
  . next hne =>
    rw [← hshows.2 v]
    apply AList.lookup_insert_ne hne

theorem congr (hshows : Shows active a h) (ha' : ∀ v, a' v = a v) : Shows active a' h := by
  refine ⟨hshows.1, ?_⟩
  intro v
  rw [ha', hshows.2]

theorem modifyAt (hshows : Shows active a h) {upstream : String} {idx : Nat} {f : PeerHealth → PeerHealth}
    (ha' : ∀ v, a' v = if v = upstream then (a v).map (·.modify idx f) else a v)
    : Shows active a' (h.modifyAt upstream idx f) := by
  have hsame (heq : (a upstream).map (·.modify idx f) = a upstream) : Shows active a' h := by
    apply hshows.congr
    intro v
    rw [ha']
    split
    . next hv => rw [hv, heq]
    . rfl
  unfold HealthRegistry.modifyAt HealthRegistry.lookup
  have hupstream := hshows.2 upstream
  cases hslots : h.upstreams.lookup upstream with
  | none =>
    apply hsame
    rw [← hupstream, hslots, Option.map_none]
  | some slots =>
    rw [hslots] at hupstream
    by_cases hidx : idx < slots.peers.length
    . simp only [Option.filter_some, hidx, decide_true, if_true]
      apply hshows.insert
      intro v
      rw [ha']
      split
      . next heq => rw [heq, ← hupstream, Option.map_some]
      . rfl
    . simp only [Option.filter_some, hidx, decide_false, Bool.false_eq_true, if_false]
      apply hsame
      rw [← hupstream, Option.map_some, PeerSlots.modify_of_length_le (Nat.le_of_not_lt hidx)]

theorem modifyAddr (hshows : Shows active a h) {upstream : String} {addr : SocketAddr}
    {f : PeerHealth → PeerHealth}
    (ha' : ∀ v, a' v = if v = upstream then (a v).map (·.modifyAddr addr f) else a v)
    : Shows active a' (h.modifyAddr upstream addr f) := by
  have hsame (heq : (a upstream).map (·.modifyAddr addr f) = a upstream) : Shows active a' h := by
    apply hshows.congr
    intro v
    rw [ha']
    split
    . next hv => rw [hv, heq]
    . rfl
  unfold HealthRegistry.modifyAddr
  have hupstream := hshows.2 upstream
  cases hslots : h.upstreams.lookup upstream with
  | none =>
    apply hsame
    rw [← hupstream, hslots, Option.map_none]
  | some slots =>
    rw [hslots] at hupstream
    dsimp only
    cases hpos : slots.addrSlot addr with
    | none =>
      apply hsame
      rw [← hupstream, Option.map_some]
      unfold PeerSlots.modifyAddr
      rw [hpos, Option.elim_none]
    | some pos =>
      apply hshows.insert
      intro v
      rw [ha']
      split
      . next heq =>
        rw [heq, ← hupstream, Option.map_some]
        unfold PeerSlots.modifyAddr
        rw [hpos, Option.elim_some]
      . rfl

end SharedHealth.Shows

namespace HealthCall

def outcome (call : HealthCall) : Option (String × Nat × SlotSection) :=
  match call with
  | .recordFailure upstream idx cfg nowMs =>
    if cfg.maxFails = 0 then none else some (upstream, idx, .counting cfg nowMs)
  | .recordSuccess upstream idx nowMs => some (upstream, idx, .closing nowMs)
  | _ => none

def gauge (call : HealthCall) : Option (String × SocketAddr × (Nat → Nat)) :=
  match call with
  | .incInFlight upstream addr => some (upstream, addr, fun n => n + 1)
  | .decInFlight upstream addr => some (upstream, addr, fun n => n - 1)
  | _ => none

variable {call : HealthCall} {upstream : String}

theorem exec_of_outcome {idx : Nat} {todo : SlotSection} (hcall : call.outcome = some (upstream, idx, todo))
    (h : HealthRegistry)
    : h.exec call.op = h.modifyAt upstream idx todo.finish := by
  cases call with
  | recordFailure u i cfg nowMs =>
    simp only [outcome] at hcall
    split at hcall
    . cases hcall
    . next hcfg =>
      cases hcall
      simp only [op, HealthRegistry.exec, HealthRegistry.recordFailure, hcfg, if_false]
      rfl
  | recordSuccess u i nowMs =>
    cases hcall
    rfl
  | _ => cases hcall

theorem exec_of_gauge {addr : SocketAddr} {f : Nat → Nat} (hcall : call.gauge = some (upstream, addr, f))
    (h : HealthRegistry)
    : h.exec call.op = h.modifyAddr upstream addr fun p => { p with inFlight := f p.inFlight } := by
  cases call with
  | incInFlight u a =>
    cases hcall
    rfl
  | decInFlight u a =>
    cases hcall
    rfl
  | _ => cases hcall

end HealthCall

namespace HealthTask

inductive Acts (s : SharedHealth) (call : HealthCall)
    : HealthProgress → SharedHealth → HealthProgress → Prop where
  | skipped {upstream : String} {idx : Nat} {cfg : HealthConfig} {nowMs : Nat}
      (hcall : call = .recordFailure upstream idx cfg nowMs) (hcfg : cfg.maxFails = 0)
      : Acts s call .start s .done
  | missed {upstream : String} {idx : Nat} {todo : SlotSection}
      (hcall : call.outcome = some (upstream, idx, todo)) (hlookup : s.lookup upstream idx = none)
      : Acts s call .start s .done
  | found {upstream : String} {idx : Nat} {todo : SlotSection} {b : Nat}
      (hcall : call.outcome = some (upstream, idx, todo)) (hlookup : s.lookup upstream idx = some b)
      : Acts s call .start s (.found b)
  | entered {upstream : String} {idx : Nat} {todo : SlotSection} {b : Nat} {health : PeerHealth}
      (hcall : call.outcome = some (upstream, idx, todo)) (hslot : s.slot b idx = some { health })
      : Acts s call (.found b) (s.setSlot b idx { health, held := some todo }) (.inside b)
  | advanced {upstream : String} {idx : Nat} {todo todo' : SlotSection} {b : Nat}
      {health health' : PeerHealth} {held : Option SlotSection}
      (hcall : call.outcome = some (upstream, idx, todo))
      (hslot : s.slot b idx = some { health, held := some todo' })
      (hstep : todo'.step health = some (health', held))
      : Acts s call (.inside b) (s.setSlot b idx { health := health', held })
          (if held.isSome then .inside b else .done)
  | moving {upstream : String} {addr : SocketAddr} {f : Nat → Nat}
      (hcall : call.gauge = some (upstream, addr, f)) (hheld : s.held = none)
      : Acts s call .start { s with held := some .moving } .locked
  | moved {upstream : String} {addr : SocketAddr} {f : Nat → Nat}
      (hcall : call.gauge = some (upstream, addr, f)) (hheld : s.held = some .moving)
      : Acts s call .locked
          { s.modifyAddr upstream addr (fun p => { p with inFlight := f p.inFlight }) with
            held := none } .done
  | copying {upstream : String} {addrs : List SocketAddr}
      (hcall : call = .register upstream addrs) (hheld : s.held = none)
      : Acts s call .start { s with held := some (.copying { upstream, addrs }) } .locked
  | cloning {upstream : String} {addrs : List SocketAddr} {c : Copying} {b : Nat} {health : PeerHealth}
      (hcall : call = .register upstream addrs) (hheld : s.held = some (.copying c))
      (hb : s.upstreams.lookup c.upstream = some b) (hslot : s.slot b c.copied.length = some { health })
      : Acts s call .locked (s.setSlot b c.copied.length { health, held := some .cloning }) .locked
  | cloned {upstream : String} {addrs : List SocketAddr} {c : Copying} {b : Nat} {health : PeerHealth}
      (hcall : call = .register upstream addrs) (hheld : s.held = some (.copying c))
      (hb : s.upstreams.lookup c.upstream = some b)
      (hslot : s.slot b c.copied.length = some { health, held := some .cloning })
      : Acts s call .locked
          { s.setSlot b c.copied.length { health } with
            held := some (.copying { c with copied := c.copied ++ [health] }) } .locked
  | installed {upstream : String} {addrs : List SocketAddr} {c : Copying}
      (hcall : call = .register upstream addrs) (hheld : s.held = some (.copying c))
      (hdone : ∀ b, s.upstreams.lookup c.upstream = some b → s.slot b c.copied.length = none)
      : Acts s call .locked (s.install c) .done

variable {s s' : SharedHealth} {call : HealthCall} {progress progress' : HealthProgress}

theorem acts_of_record {upstream : String} {idx : Nat} {todo : SlotSection}
    (hcall : call.outcome = some (upstream, idx, todo))
    (h : s.record upstream idx todo progress = some (s', progress'))
    : Acts s call progress s' progress' := by
  cases progress with
  | start =>
    simp only [SharedHealth.record] at h
    split at h
    . cases h
    . cases hlookup : s.lookup upstream idx with
      | none =>
        rw [hlookup] at h
        cases h
        exact .missed hcall hlookup
      | some b =>
        rw [hlookup] at h
        cases h
        exact .found hcall hlookup
  | found b =>
    simp only [SharedHealth.record] at h
    split at h
    . next health hslot =>
      cases h
      exact .entered hcall hslot
    . cases h
  | inside b =>
    simp only [SharedHealth.record] at h
    split at h
    . next health todo' hslot =>
      rw [Option.map_eq_some_iff] at h
      rcases h with ⟨⟨health', held⟩, hstep, heq⟩
      cases heq
      exact .advanced hcall hslot hstep
    . cases h
  | _ => cases h

theorem acts_of_move {upstream : String} {addr : SocketAddr} {f : Nat → Nat}
    (hcall : call.gauge = some (upstream, addr, f))
    (h : s.move upstream addr (fun p => { p with inFlight := f p.inFlight }) progress = some (s', progress'))
    : Acts s call progress s' progress' := by
  unfold SharedHealth.move at h
  split at h
  . next hheld =>
    cases h
    exact .moving hcall hheld
  . next hheld =>
    cases h
    exact .moved hcall hheld
  . cases h

theorem acts_of_copy {upstream : String} {addrs : List SocketAddr} {c : Copying}
    (hcall : call = .register upstream addrs) (hheld : s.held = some (.copying c))
    (h : s.copy c = some (s', progress'))
    : Acts s call .locked s' progress' := by
  unfold SharedHealth.copy at h
  dsimp only at h
  split at h
  . next b slot hslot =>
    rw [Option.bind_eq_some_iff] at hslot
    rcases hslot with ⟨b, hb, hslot⟩
    rw [Option.map_eq_some_iff] at hslot
    rcases hslot with ⟨⟨health, held⟩, hslot, heq⟩
    cases heq
    split at h
    . next hnone =>
      cases hnone
      cases h
      exact .cloning hcall hheld hb hslot
    . next hcloning =>
      cases hcloning
      cases h
      exact .cloned hcall hheld hb hslot
    . cases h
  . next hnone =>
    cases h
    apply Acts.installed hcall hheld
    intro b hb
    rw [hb, Option.bind_some, Option.map_eq_none_iff] at hnone
    exact hnone

theorem acts_of_act {t t' : HealthTask} {x : Unit} (h : act s t x = some (s', t'))
    : t'.call = t.call ∧ Acts s t.call t.progress s' t'.progress := by
  unfold act at h
  rw [Option.map_eq_some_iff] at h
  rcases h with ⟨⟨s₁, progress'⟩, hstep, heq⟩
  cases heq
  refine ⟨rfl, ?_⟩
  rcases t with ⟨call, progress⟩
  cases call with
  | register upstream addrs =>
    simp only [step, SharedHealth.reload] at hstep
    split at hstep
    . next hheld =>
      cases hstep
      exact .copying rfl hheld
    . next c hheld => exact acts_of_copy rfl hheld hstep
    . cases hstep
  | recordFailure upstream idx cfg nowMs =>
    simp only [step] at hstep
    split at hstep
    . next hcfg =>
      unfold SharedHealth.skip at hstep
      split at hstep
      . cases hstep
        exact .skipped rfl hcfg
      . cases hstep
    . next hcfg =>
      apply acts_of_record _ hstep
      simp [HealthCall.outcome, hcfg]
  | recordSuccess upstream idx nowMs => exact acts_of_record rfl hstep
  | incInFlight upstream addr => exact acts_of_move rfl hstep
  | decInFlight upstream addr => exact acts_of_move rfl hstep

end HealthTask

namespace SharedHealth

def copied (s : SharedHealth) (upstream : String) : Nat :=
  match s.held with
  | some (.copying c) => if c.upstream = upstream then c.copied.length else 0
  | _ => 0

structure Sound (s : SharedHealth) : Prop where
  bounded : ∀ u b, s.upstreams.lookup u = some b → b < s.blocks.length
  distinct : ∀ u v b, s.upstreams.lookup u = some b → s.upstreams.lookup v = some b → u = v
  copied : ∀ c, s.held = some (.copying c) → c.copied <+: (s.view c.upstream).elim [] PeerSlots.peers

variable {s s' : SharedHealth}

theorem Sound.congr (hs : s.Sound) (hupstreams : s'.upstreams = s.upstreams)
    (hlength : s'.blocks.length = s.blocks.length)
    (hcopied : ∀ c, s'.held = some (.copying c) → c.copied <+: (s'.view c.upstream).elim [] PeerSlots.peers)
    : s'.Sound where
  bounded := by
    rw [hupstreams, hlength]
    exact hs.bounded
  distinct := by
    rw [hupstreams]
    exact hs.distinct
  copied := hcopied

@[simp]
theorem held_setSlot (s : SharedHealth) (b idx : Nat) (slot : SharedSlot)
    : (s.setSlot b idx slot).held = s.held := by
  rfl

@[simp]
theorem length_setSlot (s : SharedHealth) (b idx : Nat) (slot : SharedSlot)
    : (s.setSlot b idx slot).blocks.length = s.blocks.length := by
  simp [setSlot]

theorem slot_setSlot (s : SharedHealth) (b idx : Nat) (slot : SharedSlot) (b' idx' : Nat)
    : (s.setSlot b idx slot).slot b' idx'
      = if b = b' ∧ idx = idx' then (s.slot b' idx').map fun _ => slot else s.slot b' idx' := by
  unfold SharedHealth.slot setSlot
  dsimp only
  rw [List.getElem?_modify]
  by_cases hb : b = b'
  . subst hb
    cases s.blocks[b]? with
    | none => simp
    | some block =>
      by_cases hidx : idx = idx'
      . subst hidx
        simp [SharedBlock.modify]
      . simp [SharedBlock.modify, hidx]
  . simp [hb]

theorem slot_install {c : Copying} {b idx : Nat} {slot : SharedSlot}
    (h : (s.install c).slot b idx = some slot)
    : s.slot b idx = some slot ∨ slot.held = none := by
  unfold SharedHealth.slot install at *
  rw [Option.bind_eq_some_iff] at h
  rcases h with ⟨block, hblock, hslot⟩
  rcases Pool.getElem?_concat_cases hblock with rfl | hold
  . right
    unfold fresh at hslot
    dsimp only at hslot
    rw [List.getElem?_map, Option.map_eq_some_iff] at hslot
    rcases hslot with ⟨addr, -, rfl⟩
    rfl
  . left
    rw [hold, Option.bind_some, hslot]

theorem slot_modifyAddr {upstream : String} {addr : SocketAddr} {f : PeerHealth → PeerHealth} {b idx : Nat}
    {slot : SharedSlot} (h : (s.modifyAddr upstream addr f).slot b idx = some slot)
    : ∃ old, s.slot b idx = some old ∧ old.held = slot.held := by
  unfold modifyAddr at h
  split at h
  . next b' hb' =>
    unfold SharedHealth.slot at *
    rw [Option.bind_eq_some_iff] at h
    rcases h with ⟨block, hblock, hslot⟩
    dsimp only at hblock
    rw [List.getElem?_modify, Option.map_eq_map, Option.map_eq_some_iff] at hblock
    rcases hblock with ⟨old, hold, rfl⟩
    rw [hold, Option.bind_some]
    split at hslot
    . unfold SharedBlock.modifyAddr at hslot
      split at hslot
      . next pos hpos =>
        unfold SharedBlock.modify at hslot
        rw [List.getElem?_modify, Option.map_eq_map, Option.map_eq_some_iff] at hslot
        rcases hslot with ⟨slot', hslot', rfl⟩
        refine ⟨slot', hslot', ?_⟩
        split <;> rfl
      . exact ⟨slot, hslot, rfl⟩
    . exact ⟨slot, hslot, rfl⟩
  . exact ⟨slot, h, rfl⟩

theorem upstreams_modifyAddr (s : SharedHealth) (upstream : String) (addr : SocketAddr)
    (f : PeerHealth → PeerHealth)
    : (s.modifyAddr upstream addr f).upstreams = s.upstreams := by
  unfold modifyAddr
  split <;> rfl

theorem length_modifyAddr (s : SharedHealth) (upstream : String) (addr : SocketAddr)
    (f : PeerHealth → PeerHealth)
    : (s.modifyAddr upstream addr f).blocks.length = s.blocks.length := by
  unfold modifyAddr
  split
  . apply List.length_modify
  . rfl

theorem view_modifyAddr (hs : s.Sound) (upstream : String) (addr : SocketAddr) {f : PeerHealth → PeerHealth}
    (hf : ∀ (todo : SlotSection) p, todo.finish (f p) = f (todo.finish p)) (v : String)
    : (s.modifyAddr upstream addr f).view v
      = if v = upstream then (s.view v).map (·.modifyAddr addr f) else s.view v := by
  unfold modifyAddr
  cases hb : s.upstreams.lookup upstream with
  | none =>
    dsimp only
    split
    . next hv =>
      subst hv
      simp [view, current, hb]
    . rfl
  | some b =>
    unfold view current
    dsimp only
    split
    . next hv =>
      subst hv
      rw [hb, Option.bind_some, Option.bind_some, List.getElem?_modify_eq]
      cases s.blocks[b]? with
      | none => rfl
      | some block => exact congrArg some (block.view_modifyAddr addr hf)
    . next hv =>
      cases hb' : s.upstreams.lookup v with
      | none => rfl
      | some b' =>
        rw [Option.bind_some, Option.bind_some, List.getElem?_modify_ne]
        intro heq
        subst heq
        exact hv (hs.distinct v upstream b hb' hb)

theorem view_install (hs : s.Sound) (c : Copying) (v : String)
    : (s.install c).view v = if v = c.upstream then some (s.fresh c).view else s.view v := by
  unfold view current install
  dsimp only
  split
  . next hv =>
    subst hv
    rw [AList.lookup_insert, Option.bind_some, List.getElem?_concat_length]
    rfl
  . next hv =>
    rw [AList.lookup_insert_ne hv]
    cases hb : s.upstreams.lookup v with
    | none => rfl
    | some b => rw [Option.bind_some, Option.bind_some, List.getElem?_append_left (hs.bounded v b hb)]

theorem Sound.install (hs : s.Sound) (c : Copying) : (s.install c).Sound where
  bounded := by
    intro u b hb
    unfold SharedHealth.install at *
    dsimp only at *
    rw [List.length_append, List.length_singleton]
    by_cases hu : u = c.upstream
    . subst hu
      rw [AList.lookup_insert] at hb
      cases hb
      omega
    . rw [AList.lookup_insert_ne hu] at hb
      have := hs.bounded u b hb
      omega
  distinct := by
    intro u v b hu hv
    unfold SharedHealth.install at *
    dsimp only at *
    by_cases hu' : u = c.upstream
    . by_cases hv' : v = c.upstream
      . rw [hu', hv']
      . subst hu'
        rw [AList.lookup_insert] at hu
        cases hu
        rw [AList.lookup_insert_ne hv'] at hv
        exact absurd (hs.bounded v _ hv) (Nat.lt_irrefl _)
    . rw [AList.lookup_insert_ne hu'] at hu
      by_cases hv' : v = c.upstream
      . subst hv'
        rw [AList.lookup_insert] at hv
        cases hv
        exact absurd (hs.bounded u _ hu) (Nat.lt_irrefl _)
      . rw [AList.lookup_insert_ne hv'] at hv
        exact hs.distinct u v b hu hv
  copied := nofun

theorem lookup_prefix_concat {c : Copying} {b : Nat} {health : PeerHealth}
    (hb : s.upstreams.lookup c.upstream = some b)
    (hslot : s.slot b c.copied.length = some { health, held := some .cloning })
    (hcopied : c.copied <+: (s.view c.upstream).elim [] PeerSlots.peers)
    : c.copied ++ [health] <+: (s.view c.upstream).elim [] PeerSlots.peers := by
  rcases hcopied with ⟨rest, hrest⟩
  have hnext : ((s.view c.upstream).elim [] PeerSlots.peers)[c.copied.length]? = some health := by
    unfold SharedHealth.slot at hslot
    rw [Option.bind_eq_some_iff] at hslot
    rcases hslot with ⟨block, hblock, hslot⟩
    rw [view_eq_of_lookup hb, hblock, Option.map_some, Option.elim_some]
    unfold SharedBlock.view
    rw [List.getElem?_map, hslot]
    rfl
  rw [← hrest] at hnext ⊢
  rw [List.getElem?_append_right (Nat.le_refl _), Nat.sub_self] at hnext
  cases rest with
  | nil => cases hnext
  | cons p rest =>
    cases hnext
    exact ⟨rest, by simp⟩

theorem eq_of_prefix {c : Copying} (hcopied : c.copied <+: (s.view c.upstream).elim [] PeerSlots.peers)
    (hdone : ∀ b, s.upstreams.lookup c.upstream = some b → s.slot b c.copied.length = none)
    : c.copied = (s.view c.upstream).elim [] PeerSlots.peers := by
  apply hcopied.eq_of_length_le
  cases hb : s.upstreams.lookup c.upstream with
  | none => simp [view, current, hb]
  | some b =>
    have hslot := hdone b hb
    unfold SharedHealth.slot at hslot
    rw [view_eq_of_lookup hb]
    cases hblock : s.blocks[b]? with
    | none => simp
    | some block =>
      rw [hblock, Option.bind_some, List.getElem?_eq_none_iff] at hslot
      simpa [SharedBlock.view] using hslot

end SharedHealth

namespace HealthCall

def Step (active : AList fun _ : String × SocketAddr => ActivePeer) (a : String → Option PeerSlots)
    (call : HealthCall) (a' : String → Option PeerSlots)
    : Prop :=
  ∀ h, SharedHealth.Shows active a h → SharedHealth.Shows active a' (h.exec call.op)

variable {s : SharedHealth}

theorem step_of_entered (hs : s.Sound) {call : HealthCall} {upstream : String} {idx b : Nat}
    {todo : SlotSection} {health : PeerHealth} (hcall : call.outcome = some (upstream, idx, todo))
    (hslot : s.slot b idx = some { health }) (hb : s.upstreams.lookup upstream = some b)
    : Step s.active s.view call (s.setSlot b idx { health, held := some todo }).view := by
  intro h hshows
  rw [exec_of_outcome hcall]
  apply hshows.modifyAt
  intro v
  rw [SharedHealth.view_setSlot s (f := todo.finish)]
  . by_cases hv : v = upstream
    . rw [if_pos hv, if_pos (by rw [hv, hb])]
    . rw [if_neg hv, if_neg]
      intro hb'
      exact hv (hs.distinct v upstream b hb' hb)
  . intro old hold
    rw [hslot] at hold
    cases hold
    rfl

theorem step_of_moved (hs : s.Sound) {call : HealthCall} {upstream : String} {addr : SocketAddr}
    {f : Nat → Nat} (hcall : call.gauge = some (upstream, addr, f))
    : Step s.active s.view call
        (s.modifyAddr upstream addr fun p => { p with inFlight := f p.inFlight }).view := by
  intro h hshows
  rw [exec_of_gauge hcall]
  apply hshows.modifyAddr
  intro v
  apply SharedHealth.view_modifyAddr hs
  intro todo p
  exact todo.finish_inFlight p f

theorem step_of_installed (hs : s.Sound) {c : Copying} (hheld : s.held = some (.copying c))
    (hdone : ∀ b, s.upstreams.lookup c.upstream = some b → s.slot b c.copied.length = none)
    : Step s.active s.view (.register c.upstream c.addrs) (s.install c).view := by
  intro h hshows
  apply hshows.insert
  intro v
  rw [SharedHealth.view_install hs]
  split
  . congr 1
    rw [PeerSlots.ext_iff]
    refine ⟨rfl, ?_⟩
    have hcopied := SharedHealth.eq_of_prefix (hs.copied c hheld) hdone
    unfold SharedBlock.view SharedHealth.fresh HealthRegistry.inherit HealthRegistry.isActiveHealthy
    dsimp only
    rw [List.map_map, hshows.1, hshows.2 c.upstream, hcopied]
    apply List.map_congr_left
    intro addr _
    unfold SharedHealth.view
    cases s.current c.upstream with
    | none => rfl
    | some block => rfl
  . rfl

end HealthCall

def HealthCall.Holds (s : SharedHealth) (call : HealthCall) : Prop :=
  match call with
  | .register upstream addrs => ∃ copied, s.held = some (.copying { upstream, addrs, copied })
  | _ => s.held = some .moving

namespace HealthTask

/-- The slot is still the one that the next reload copies. -/
def Undisturbed (s : SharedHealth) (t : HealthTask) : Prop :=
  match t.progress, t.call.outcome with
  | .found b, some (upstream, idx, _) => s.upstreams.lookup upstream = some b ∧ s.copied upstream ≤ idx
  | _, _ => True

instance (s : SharedHealth) (t : HealthTask) : Decidable (t.Undisturbed s) := by
  unfold Undisturbed
  split <;> infer_instance

def effect (t : HealthTask) : Option HealthCall :=
  match t.progress with
  | .inside _ => some t.call
  | .done => some t.call
  | _ => none

variable {s s' : SharedHealth} {t t' : HealthTask}

theorem effect_of_act {x : Unit} (hs : s.Sound) (hholds : t.progress = .locked → t.call.Holds s)
    (hok : t.Undisturbed s) (h : act s t x = some (s', t'))
    : s'.view = s.view ∧ t'.effect = t.effect
      ∨ ∃ call, t.effect = none ∧ t'.effect = some call ∧ HealthCall.Step s.active s.view call s'.view := by
  rcases acts_of_act h with ⟨hcall', hacts⟩
  rcases t with ⟨call, progress⟩
  rcases t' with ⟨call', progress'⟩
  dsimp only at hcall' hacts hholds
  subst hcall'
  cases hacts with
  | skipped hcall hcfg =>
    right
    refine ⟨_, rfl, rfl, ?_⟩
    intro h hshows
    subst hcall
    simpa [HealthCall.op, HealthRegistry.exec, HealthRegistry.recordFailure, hcfg] using hshows
  | missed hcall hlookup =>
    right
    refine ⟨_, rfl, rfl, ?_⟩
    intro h hshows
    rw [HealthCall.exec_of_outcome hcall]
    apply hshows.modifyAt
    intro v
    split
    . next hv => rw [hv, SharedHealth.map_modify_of_lookup_eq_none hlookup]
    . rfl
  | found hcall hlookup => exact .inl ⟨rfl, rfl⟩
  | entered hcall hslot =>
    right
    refine ⟨_, rfl, rfl, ?_⟩
    unfold Undisturbed at hok
    simp only [hcall] at hok
    exact HealthCall.step_of_entered hs hcall hslot hok.1
  | @advanced upstream idx todo todo' b health health' held hcall hslot hstep =>
    left
    constructor
    . exact SharedHealth.view_setSlot_of_slot hslot (SlotSection.finish_of_step hstep)
    . unfold effect
      cases held <;> rfl
  | moving hcall hheld => exact .inl ⟨rfl, rfl⟩
  | moved hcall hheld => exact .inr ⟨_, rfl, rfl, HealthCall.step_of_moved hs hcall⟩
  | copying hcall hheld => exact .inl ⟨rfl, rfl⟩
  | cloning hcall hheld hb hslot => exact .inl ⟨SharedHealth.view_setSlot_of_slot hslot rfl, rfl⟩
  | cloned hcall hheld hb hslot => exact .inl ⟨SharedHealth.view_setSlot_of_slot hslot rfl, rfl⟩
  | installed hcall hheld hdone =>
    right
    refine ⟨_, rfl, rfl, ?_⟩
    subst hcall
    rcases hholds rfl with ⟨copied, hheld'⟩
    rw [hheld] at hheld'
    cases hheld'
    exact HealthCall.step_of_installed hs hheld hdone

end HealthTask

end OpenRusty
