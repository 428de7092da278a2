import OpenRusty.Server.IngressRun.Basic
import OpenRusty.Server.SlotsLemmas

/-!
This module contains what the loops of one kind of objects have published when they are at rest: the union of
what every loop holds. A loop is in step with its callback, the callback with its slot, and the fold of the
slots with what is published.
-/

namespace OpenRusty

namespace WatchState

variable {T : Type} [ResourceMeta T]

def Quiet (s s' : WatchState T) : Prop := s'.stats.generation = s.stats.generation ∧ s'.handed = s.handed

theorem quiet_applyLines (parseLine : String → Option (WatchEvent T)) (s : WatchState T) (lines : List String)
    : Quiet s (s.applyLines parseLine lines) := by
  induction lines generalizing s with
  | nil => exact ⟨rfl, rfl⟩
  | cons line lines ih =>
    unfold applyLines
    split
    . next s' happly =>
      have hline : Quiet s s' := by
        unfold applyLine at happly
        split at happly
        . cases happly
        . split at happly
          . cases happly
          . dsimp only at happly
            split at happly <;> (cases happly; exact ⟨rfl, rfl⟩)
      exact ⟨(ih s').1.trans hline.1, (ih s').2.trans hline.2⟩
    . exact ⟨rfl, rfl⟩

theorem quiet_of_step {resync : Bool} {parseLine : String → Option (WatchEvent T)} {s s' : WatchState T}
    {input : WatchInput T} (hstep : s.step resync parseLine input = some s')
    (hgen : s'.stats.generation = s.stats.generation)
    : s'.handed = s.handed := by
  unfold step at hstep
  split at hstep
  . cases hstep
    rfl
  . cases hstep
    rfl
  . cases hstep
    rfl
  . cases hstep
    rfl
  . cases hstep
    unfold frame
    split
    . exact (quiet_applyLines parseLine _ _).2
    . rfl
  . cases hstep
    rfl
  . cases hstep
    rfl
  . split at hstep
    . cases hstep
      unfold fireDeadline at hgen ⊢
      split
      . next hdirty =>
        rw [if_pos hdirty] at hgen
        simp at hgen
      . rfl
    . cases hstep
  . split at hstep
    . cases hstep
      rfl
    . cases hstep
  . cases hstep

end WatchState

namespace IngressRun

open WatchState

variable {T : Type} [ResourceMeta T]

theorem Watcher.step_eq_some {parseLine : String → Option (WatchEvent T)} {w w' : Watcher T} {x : WatchInput T}
    (h : w.step parseLine x = some w')
    : w.state.step true parseLine x = some w'.state ∧ (w'.calling = false → w'.state.handed = w.state.handed) := by
  unfold Watcher.step at h
  split at h
  . cases h
  . next state hstate =>
    cases h
    refine ⟨hstate, ?_⟩
    intro hcalling
    apply quiet_of_step hstate
    simpa using hcalling

theorem Watcher.incoming_eq_some {w : Watcher T} {incoming : KeyedSnapshot T} (h : w.incoming = some incoming)
    : w.state.handed = some incoming.toSnapshot := by
  unfold Watcher.incoming at h
  split at h
  . cases h
  . next handed hhanded =>
    cases h
    exact hhanded

section handOvers

variable {paths : List String} {p q : HandOvers.Loops T} {i : Nat}

theorem of_foldStep (hinv : HandOvers.Inv paths p) {incoming : KeyedSnapshot T}
    (h : HandOvers.step p (.step i (.fold incoming)) = some q)
    : q.shared.folds = p.shared.folds ++ [(i, incoming.toSnapshot)] ∧ q.shared.published = p.shared.published
      ∧ ∃ t', t'.merged.isSome ∧ q.threads = p.threads.set i t' ∧ i < p.threads.length := by
  obtain ⟨o, heq, -⟩ | ⟨j, x, t, s, t', heq, ht, hact, rfl⟩ := Pool.step_cases _ _ h
  . cases heq
  . cases heq
    obtain ⟨incoming', hx, -, rfl, rfl⟩ | ⟨merged, hx, -⟩ := HandOvers.act_cases hact
    . cases hx
      dsimp only
      rw [hinv.index i t ht]
      exact ⟨rfl, rfl, _, rfl, rfl, (List.getElem?_eq_some_iff.mp ht).1⟩
    . cases hx

theorem of_publishStep (h : HandOvers.step p (.step i .publish) = some q)
    : q.shared.folds = p.shared.folds := by
  obtain ⟨o, heq, -⟩ | ⟨j, x, t, s, t', heq, ht, hact, rfl⟩ := Pool.step_cases _ _ h
  . cases heq
  . cases heq
    obtain ⟨incoming, hx, -⟩ | ⟨merged, -, -, rfl, -⟩ := HandOvers.act_cases hact
    . cases hx
    . rfl

end handOvers

namespace Watched

def items (k : Watched T) (key : String × String) : Option T :=
  k.watchers.reverse.findSome? fun w => w.state.snap.items.lookup key

structure AtRest (k : Watched T) : Prop where
  clean : ∀ w ∈ k.watchers, w.state.dirty = false ∧ w.calling = false
  published : ∀ t ∈ k.handOvers.threads, t.merged.isNone

instance (k : Watched T) : Decidable k.AtRest :=
  decidable_of_iff ((∀ w ∈ k.watchers, w.state.dirty = false ∧ w.calling = false)
      ∧ ∀ t ∈ k.handOvers.threads, t.merged.isNone)
    ⟨fun h => ⟨h.1, h.2⟩, fun h => ⟨h.clean, h.published⟩⟩

def Settled (k : Watched T) (e : WatchedStep T) : Prop :=
  match e with
  | .input i x => ∀ w ∈ k.watchers[i]?, w.state.ResyncSettled x
  | .fold _ => True
  | .publish i => HandOvers.PublishesLatest k.handOvers (.step i .publish)

instance [DecidableEq T] (k : Watched T) (e : WatchedStep T) : Decidable (k.Settled e) :=
  match e with
  | .input i x => inferInstanceAs (Decidable (∀ w ∈ k.watchers[i]?, w.state.ResyncSettled x))
  | .fold _ => inferInstanceAs (Decidable True)
  | .publish i => inferInstanceAs (Decidable (HandOvers.PublishesLatest k.handOvers (.step i .publish)))

structure Inv (paths : List String) (k : Watched T) : Prop where
  length : k.watchers.length = paths.length
  handOvers : HandOvers.Inv paths k.handOvers
  inSync : ∀ (i : Nat) w, k.watchers[i]? = some w → w.state.InSync
  folded : ∀ (i : Nat) w path, k.watchers[i]? = some w → paths[i]? = some path → w.calling = false →
    HandOvers.latest paths k.handOvers.shared.folds path = w.state.handed

theorem inv_init (paths : List String) : (init paths : Watched T).Inv paths where
  length := by simp [init]
  handOvers := HandOvers.inv_init paths
  inSync := by
    intro i w hw
    simp only [init, List.getElem?_map, Option.map_eq_some_iff] at hw
    obtain ⟨path, -, rfl⟩ := hw
    exact inSync_init
  folded := by
    intro i w path hw _ _
    simp only [init, List.getElem?_map, Option.map_eq_some_iff] at hw
    obtain ⟨path, -, rfl⟩ := hw
    rfl

theorem step_cases {parseLine : String → Option (WatchEvent T)} {k k' : Watched T} {e : WatchedStep T}
    (h : k.step parseLine e = some k')
    : (∃ i x w w', e = .input i x ∧ k.watchers[i]? = some w ∧ w.calling = false ∧ w.step parseLine x = some w'
          ∧ k' = { k with watchers := k.watchers.set i w' })
        ∨ (∃ i w incoming handOvers, e = .fold i ∧ k.watchers[i]? = some w ∧ w.incoming = some incoming
          ∧ HandOvers.step k.handOvers (.step i (.fold incoming)) = some handOvers
          ∧ k' = { watchers := k.watchers.set i { w with calling := false }, handOvers := handOvers })
        ∨ ∃ i handOvers, e = .publish i ∧ HandOvers.step k.handOvers (.step i .publish) = some handOvers
          ∧ k' = { k with handOvers := handOvers } := by
  cases e with
  | input i x =>
    left
    obtain ⟨w, hw, h⟩ := Option.bind_eq_some_iff.mp h
    split at h
    . cases h
    . next hfree =>
      obtain ⟨w', hw', rfl⟩ := Option.map_eq_some_iff.mp h
      simp only [Bool.or_eq_true, not_or, Bool.not_eq_true] at hfree
      exact ⟨i, x, w, w', rfl, hw, hfree.1, hw', rfl⟩
  | fold i =>
    right
    left
    obtain ⟨w, hw, h⟩ := Option.bind_eq_some_iff.mp h
    split at h
    . obtain ⟨incoming, hincoming, h⟩ := Option.bind_eq_some_iff.mp h
      obtain ⟨handOvers, hstep, rfl⟩ := Option.map_eq_some_iff.mp h
      exact ⟨i, w, incoming, handOvers, rfl, hw, hincoming, hstep, rfl⟩
    . cases h
  | publish i =>
    right
    right
    obtain ⟨handOvers, hstep, rfl⟩ := Option.map_eq_some_iff.mp h
    exact ⟨i, handOvers, rfl, hstep, rfl⟩

section inv

variable {paths : List String} {k k' : Watched T} {parseLine : String → Option (WatchEvent T)}

theorem Inv.step (hpaths : paths.Nodup) (h : k.Inv paths) {e : WatchedStep T} (hok : k.Settled e)
    (hstep : k.step parseLine e = some k')
    : k'.Inv paths := by
  obtain ⟨i, x, w, w', rfl, hw, hcalling, hw', rfl⟩ | ⟨i, w, incoming, handOvers, rfl, hw, hincoming, hfold, rfl⟩
      | ⟨i, handOvers, rfl, hpublish, rfl⟩ := step_cases hstep
  . obtain ⟨hstate, hhanded⟩ := Watcher.step_eq_some hw'
    refine ⟨by simpa using h.length, h.handOvers, ?_, ?_⟩
    . apply Pool.forall_set (P := fun w : Watcher T => w.state.InSync) ((h.inSync i w hw).step (hok w hw) hstate)
      intro j u _ hu
      exact h.inSync j u hu
    . intro j u path hu hpath hfree
      obtain ⟨rfl, rfl⟩ | ⟨-, hold⟩ := Pool.getElem?_set_cases hu
      . rw [hhanded hfree]
        exact h.folded j w path hw hpath hcalling
      . exact h.folded j u path hold hpath hfree
  . obtain ⟨hfolds, -, -⟩ := of_foldStep h.handOvers hfold
    refine ⟨by simpa using h.length, h.handOvers.step hpaths (e := .step i (.fold incoming)) trivial hfold, ?_, ?_⟩
    . intro j u hu
      obtain ⟨rfl, rfl⟩ | ⟨-, hold⟩ := Pool.getElem?_set_cases hu
      . exact h.inSync j w hw
      . exact h.inSync j u hold
    . intro j u path hu hpath hfree
      rw [hfolds, HandOvers.latest_concat]
      obtain ⟨rfl, rfl⟩ | ⟨hne, hold⟩ := Pool.getElem?_set_cases hu
      . rw [if_pos hpath]
        exact (Watcher.incoming_eq_some hincoming).symm
      . rw [if_neg]
        . exact h.folded j u path hold hpath hfree
        . intro hi
          have hlt := (List.getElem?_eq_some_iff.mp hi).1
          exact hne ((List.getElem?_inj hlt hpaths).mp (by rw [hi, hpath])).symm
  . refine ⟨h.length, h.handOvers.step hpaths (e := .step i .publish) hok hpublish, h.inSync, ?_⟩
    intro j u path hu hpath hfree
    rw [of_publishStep hpublish]
    exact h.folded j u path hu hpath hfree

theorem Inv.lookup_latest (h : k.Inv paths) (hrest : k.AtRest) (key : String × String)
    : paths.map (fun path => HandOvers.lookupSlot key (HandOvers.latest paths k.handOvers.shared.folds path))
        =
      k.watchers.map fun w => w.state.snap.items.lookup key := by
  apply List.ext_getElem?
  intro i
  rw [List.getElem?_map, List.getElem?_map]
  cases hpath : paths[i]? with
  | none =>
    have hlen := List.getElem?_eq_none_iff.mp hpath
    rw [← h.length] at hlen
    rw [List.getElem?_eq_none_iff.mpr hlen]
    rfl
  | some path =>
    have hlt := (List.getElem?_eq_some_iff.mp hpath).1
    rw [← h.length] at hlt
    have hw : k.watchers[i]? = some k.watchers[i] := List.getElem?_eq_getElem hlt
    obtain ⟨hclean, hfree⟩ := hrest.clean _ (List.getElem_mem hlt)
    obtain ⟨handed, hhanded, hsame⟩ := h.inSync i _ hw hclean
    rw [hw, Option.map_some, Option.map_some, h.folded i _ path hw hpath hfree, hhanded, HandOvers.lookupSlot,
      Option.bind_some, hsame key]

theorem Inv.converged (h : k.Inv paths) (hrest : k.AtRest) (key : String × String)
    : k.handOvers.shared.published.items.lookup key = k.items key := by
  rw [h.handOvers.converged hrest.published key, items]
  have hlatest := congrArg List.reverse (h.lookup_latest hrest key)
  rw [← List.map_reverse, ← List.map_reverse] at hlatest
  have hfind := congrArg (List.findSome? id) hlatest
  rw [List.findSome?_map, List.findSome?_map] at hfind
  exact hfind

end inv

end Watched

end IngressRun

end OpenRusty
