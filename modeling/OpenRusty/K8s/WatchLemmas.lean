import OpenRusty.K8s.Watch

/-!
This module contains the theory of the hand-over: as long as no change is pending, the callback was
last given the items of the current snapshot. A LIST that answers a resync tick and comes at the
resource version that the loop left counts as no change, so it must not follow a tick that interrupts
the debouncing of a change.
-/

namespace OpenRusty

namespace WatchState

variable {T : Type} [ResourceMeta T]

def InSync (s : WatchState T) : Prop :=
  s.dirty = false → ∃ handed, s.handed = some handed ∧ handed.SameItems s.snap

/--
The condition on a LIST at the resource version that a resync tick left: there was no pending change at
the tick, and the list holds what the loop held.
-/
def ResyncSettled (s : WatchState T) (input : WatchInput T) : Prop :=
  match input with
  | .listed items resourceVersion =>
    s.restartRv = some resourceVersion →
      s.dirty = false ∧ s.snap.SameItems (Snapshot.replaceFromList items resourceVersion)
  | _ => True

instance [DecidableEq T] (s : WatchState T) (input : WatchInput T)
    : Decidable (s.ResyncSettled input) := by
  unfold ResyncSettled
  split <;> infer_instance

omit [ResourceMeta T] in
theorem inSync_init : (init : WatchState T).InSync := by
  intro hclean
  cases hclean

theorem InSync.listed {s : WatchState T} (h : s.InSync) {resync : Bool} {items : List T}
    {resourceVersion : String} (hok : s.ResyncSettled (.listed items resourceVersion))
    : (s.listed resync items resourceVersion).InSync := by
  intro hclean
  have hrv : s.restartRv = some resourceVersion := by
    simp only [WatchState.listed] at hclean
    cases hrestart : s.restartRv with
    | none => simp [hrestart] at hclean
    | some rv =>
      simp only [hrestart, Option.all_some, bne_eq_false_iff_eq] at hclean
      rw [← hclean]
      rfl
  obtain ⟨hbefore, hitems⟩ := hok hrv
  obtain ⟨handed, hhanded, hsame⟩ := h hbefore
  exact ⟨handed, hhanded, hsame.trans hitems⟩

omit [ResourceMeta T] in
theorem InSync.reconnect {s : WatchState T} (h : s.InSync) : s.reconnect.InSync := by
  exact h

theorem InSync.applyLine {parseLine : String → Option (WatchEvent T)} {s s' : WatchState T}
    {line : String} (h : s.InSync) (happly : s.applyLine parseLine line = some s')
    : s'.InSync := by
  unfold WatchState.applyLine at happly
  split at happly
  . cases happly
  . next event hparse =>
    split at happly
    . cases happly
    . dsimp at happly
      split at happly
      . next hbookmark =>
        cases happly
        intro hclean
        obtain ⟨handed, hhanded, hsame⟩ := h hclean
        refine ⟨handed, hhanded, ?_⟩
        apply hsame.trans
        exact Snapshot.sameItems_applyEvent_bookmark s.snap hbookmark
      . cases happly
        intro hclean
        cases hclean

theorem InSync.applyLines {parseLine : String → Option (WatchEvent T)} {s : WatchState T}
    (h : s.InSync) (lines : List String)
    : (s.applyLines parseLine lines).InSync := by
  induction lines generalizing s with
  | nil => exact h
  | cons line lines ih =>
    unfold WatchState.applyLines
    split
    . next s' happly =>
      apply ih
      exact h.applyLine happly
    . exact h.reconnect

theorem InSync.frame {parseLine : String → Option (WatchEvent T)} {s : WatchState T} (h : s.InSync)
    (data : Bytes)
    : (s.frame parseLine data).InSync := by
  unfold WatchState.frame
  split
  . apply InSync.applyLines
    exact h
  . exact h.reconnect

omit [ResourceMeta T] in
theorem InSync.fireDeadline {s : WatchState T} (h : s.InSync) : s.fireDeadline.InSync := by
  unfold WatchState.fireDeadline
  split
  . intro _
    exact ⟨s.snap, rfl, Snapshot.SameItems.refl s.snap⟩
  . exact h

theorem InSync.step {resync : Bool} {parseLine : String → Option (WatchEvent T)}
    {s s' : WatchState T} {input : WatchInput T} (h : s.InSync) (hok : s.ResyncSettled input)
    (hstep : s.step resync parseLine input = some s')
    : s'.InSync := by
  unfold WatchState.step at hstep
  split at hstep
  . cases hstep
    exact h.listed hok
  . cases hstep
    exact h
  . cases hstep
    exact h
  . cases hstep
    exact h.reconnect
  . cases hstep
    apply h.frame
  . cases hstep
    exact h.reconnect
  . cases hstep
    exact h.reconnect
  . split at hstep
    . cases hstep
      exact h.fireDeadline
    . cases hstep
  . split at hstep
    . cases hstep
      exact h
    . cases hstep
  . cases hstep

def Keyed (s : WatchState T) : Prop :=
  s.snap.Keyed ∧ ∀ handed, s.handed = some handed → handed.Keyed

theorem Keyed.applyLines {parseLine : String → Option (WatchEvent T)} {s : WatchState T}
    (h : s.Keyed) (lines : List String)
    : (s.applyLines parseLine lines).Keyed := by
  induction lines generalizing s with
  | nil => exact h
  | cons line lines ih =>
    unfold WatchState.applyLines
    split
    . next s' happly =>
      apply ih
      unfold WatchState.applyLine at happly
      split at happly
      . cases happly
      . next event _ =>
        have hevent := Snapshot.keyed_applyEvent h.1 event
        split at happly
        . cases happly
        . dsimp at happly
          split at happly
          . cases happly
            exact ⟨hevent, h.2⟩
          . cases happly
            exact ⟨hevent, h.2⟩
    . exact h

theorem Keyed.fireDeadline {s : WatchState T} (h : s.Keyed) : s.fireDeadline.Keyed := by
  unfold WatchState.fireDeadline
  split
  . refine ⟨h.1, ?_⟩
    intro handed hhanded
    cases hhanded
    exact h.1
  . exact h

theorem Keyed.step {resync : Bool} {parseLine : String → Option (WatchEvent T)}
    {s s' : WatchState T} {input : WatchInput T} (h : s.Keyed)
    (hstep : s.step resync parseLine input = some s')
    : s'.Keyed := by
  unfold WatchState.step at hstep
  split at hstep
  . cases hstep
    exact ⟨Snapshot.keyed_replaceFromList _ _, h.2⟩
  . cases hstep
    exact h
  . cases hstep
    exact h
  . cases hstep
    exact h
  . cases hstep
    unfold WatchState.frame
    split
    . apply Keyed.applyLines
      exact h
    . exact h
  . cases hstep
    exact h
  . cases hstep
    exact h
  . split at hstep
    . cases hstep
      exact h.fireDeadline
    . cases hstep
  . split at hstep
    . cases hstep
      exact h
    . cases hstep
  . cases hstep

end WatchState

theorem handed_items_of_settled {T : Type} [ResourceMeta T] (resync : Bool)
    (parseLine : String → Option (WatchEvent T)) (inputs : List (WatchInput T)) (s : WatchState T)
    (hok : Machine.Guarded (WatchState.step resync parseLine) WatchState.ResyncSettled
      WatchState.init inputs)
    (hrun : Machine.run (WatchState.step resync parseLine) WatchState.init inputs = some s)
    (hclean : s.dirty = false)
    : ∃ handed, s.handed = some handed ∧ handed.SameItems s.snap := by
  have hinv : s.InSync := by
    apply Machine.inv_of_run _ WatchState.inSync_init hok hrun
    intro s input s' hs hinput hstep
    exact hs.step hinput hstep
  exact hinv hclean

structure WatchedObject where
  nspace : String
  name : String
  resourceVersion : String
  deriving DecidableEq, Repr

instance : ResourceMeta WatchedObject where
  nspace := WatchedObject.nspace
  name := WatchedObject.name
  resourceVersion := WatchedObject.resourceVersion

def addedObject : WatchedObject := { nspace := "web", name := "a", resourceVersion := "11" }

def addedLine : String :=
  "\x7b\"type\":\"ADDED\",\"object\":\x7b\"metadata\":\x7b\"namespace\":\"web\",\"name\":\"a\"," ++
  "\"resourceVersion\":\"11\"\x7d\x7d\x7d"

def parseAdded (line : String) : Option (WatchEvent WatchedObject) :=
  if line = addedLine then some { eventType := .added, object := addedObject } else none

def addedFrame : Bytes := addedLine.toUTF8.toList ++ [newline]

def settledResync : List (WatchInput WatchedObject) :=
  [.listed [] "10", .opened, .deadline, .frame addedFrame, .deadline, .resync,
    .listed [addedObject] "11"]

theorem handed_items_of_settled_settledResync
    : ∃ s, Machine.run (WatchState.step true parseAdded) WatchState.init settledResync = some s
        ∧ s.stats.generation = 2
        ∧ ∃ handed, s.handed = some handed ∧ handed.SameItems s.snap := by
  have hgen : (Machine.run (WatchState.step true parseAdded) WatchState.init settledResync).map
      (fun s => (s.stats.generation, s.dirty)) = some (2, false) := by
    decide +kernel
  obtain ⟨s, hrun, hs⟩ := Option.map_eq_some_iff.mp hgen
  refine ⟨s, hrun, congrArg Prod.fst hs, ?_⟩
  apply handed_items_of_settled true parseAdded settledResync s _ hrun (congrArg Prod.snd hs)
  decide +kernel

def resyncDuringDebounce : List (WatchInput WatchedObject) :=
  [.listed [] "10", .opened, .deadline, .frame addedFrame, .resync, .listed [addedObject] "11"]

theorem change_lost_by_resync
    : ∃ s, Machine.run (WatchState.step true parseAdded) WatchState.init resyncDuringDebounce
          = some s
        ∧ s.dirty = false
        ∧ ¬ ∃ handed, s.handed = some handed ∧ handed.SameItems s.snap := by
  have hend : (Machine.run (WatchState.step true parseAdded) WatchState.init
      resyncDuringDebounce).map (fun s => (s.dirty, s.handed.map fun handed =>
        handed.items.lookup ("web", "a"), s.snap.items.lookup ("web", "a")))
      = some (false, some none, some addedObject) := by
    decide +kernel
  obtain ⟨s, hrun, hs⟩ := Option.map_eq_some_iff.mp hend
  simp only [Prod.mk.injEq] at hs
  refine ⟨s, hrun, hs.1, ?_⟩
  rintro ⟨handed, hhanded, hsame⟩
  have hlook := hs.2.1
  rw [hhanded, Option.map_some, hsame, hs.2.2] at hlook
  cases hlook

end OpenRusty
