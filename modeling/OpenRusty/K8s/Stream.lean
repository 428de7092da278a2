import OpenRusty.K8s.WatchLemmas
import OpenRusty.Lib.Lines
import Mathlib.Logic.Function.Basic

/-!
This module contains what the watch loop applies of a stream. The frames may cut the stream anywhere: the
events that are applied are those of the lines of the whole stream, up to the first line that is unusable.
What a LIST and the events behind it make of the snapshot is what the server holds.
-/

namespace OpenRusty

section lines

def lineOf (raw : Bytes) : String :=
  String.ofList (((fromUtf8 raw).getD "").toList.rdropWhile (· == '\r'))

/-- Every complete line of the stream is a text; a frame with another line is dropped as a whole. -/
def IsText (stream : Bytes) : Prop :=
  ∀ raw ∈ (Lines.cut newline [] stream).1, (fromUtf8 raw).isSome

theorem takeLines_go {raw buf : Bytes} (h : ∀ line ∈ (Lines.cut newline raw.reverse buf).1, (fromUtf8 line).isSome)
    : takeLines.go raw buf
        =
      (some ((Lines.cut newline raw.reverse buf).1.map lineOf), (Lines.cut newline raw.reverse buf).2) := by
  induction buf generalizing raw with
  | nil => rfl
  | cons b buf ih =>
    by_cases hb : b = newline
    . rw [Lines.cut, if_pos hb] at h ⊢
      obtain ⟨line, hline⟩ := Option.isSome_iff_exists.mp (h raw.reverse (by simp))
      have hrest : ∀ line ∈ (Lines.cut newline ([] : Bytes).reverse buf).1, (fromUtf8 line).isSome := by
        intro line hmem
        exact h line (List.mem_cons_of_mem _ hmem)
      rw [takeLines.go, if_pos hb, hline]
      dsimp only
      rw [ih hrest]
      simp [lineOf, hline]
    . rw [Lines.cut, if_neg hb] at h ⊢
      have hrev : raw.reverse ++ [b] = (b :: raw).reverse := by simp
      rw [hrev] at h ⊢
      rw [takeLines.go, if_neg hb]
      exact ih h

theorem takeLines_eq {buf : Bytes} (h : IsText buf)
    : takeLines buf
        =
      (some ((Lines.cut newline [] buf).1.map lineOf), (Lines.cut newline [] buf).2) :=
  takeLines_go h

end lines

namespace WatchState

variable {T : Type} [ResourceMeta T] (parseLine : String → Option (WatchEvent T))

def appliedLines (lines : List String) : List (WatchEvent T) :=
  match lines with
  | [] => []
  | line :: lines =>
    match parseLine line with
    | none => []
    | some event => if event.eventType = .error then [] else event :: appliedLines lines

def appliedFrame (s : WatchState T) (data : Bytes) : List (WatchEvent T) :=
  match takeLines (s.buf ++ data) with
  | (some lines, _) => appliedLines parseLine lines
  | (none, _) => []

def feed (s : WatchState T) (frames : List Bytes) : WatchState T × List (WatchEvent T) :=
  match frames with
  | [] => (s, [])
  | data :: frames =>
    if s.phase = .streaming then
      let rest := feed (s.frame parseLine data) frames
      (rest.1, s.appliedFrame parseLine data ++ rest.2)
    else
      (s, [])

section applyLines

def Usable (line : String) : Prop := ∃ event, parseLine line = some event ∧ event.eventType ≠ .error

variable {parseLine} {s : WatchState T} {line : String} {lines : List String}

theorem applyLine_usable {event : WatchEvent T} (hparse : parseLine line = some event)
    (hevent : event.eventType ≠ .error)
    : ∃ t, s.applyLine parseLine line = some t ∧ t.phase = s.phase ∧ t.buf = s.buf
      ∧ t.snap = s.snap.applyEvent event := by
  unfold applyLine
  rw [hparse]
  dsimp only
  rw [if_neg hevent]
  split
  . exact ⟨_, rfl, rfl, rfl, rfl⟩
  . exact ⟨_, rfl, rfl, rfl, rfl⟩

theorem applyLine_unusable (h : ¬Usable parseLine line) : s.applyLine parseLine line = none := by
  unfold applyLine
  cases hparse : parseLine line with
  | none => rfl
  | some event =>
    by_cases hevent : event.eventType = .error
    . exact if_pos hevent
    . exact absurd ⟨event, hparse, hevent⟩ h

omit [ResourceMeta T] in
theorem appliedLines_cons {event : WatchEvent T} (hparse : parseLine line = some event)
    (hevent : event.eventType ≠ .error)
    : appliedLines parseLine (line :: lines) = event :: appliedLines parseLine lines := by
  rw [appliedLines, hparse]
  exact if_neg hevent

omit [ResourceMeta T] in
theorem appliedLines_unusable (h : ¬Usable parseLine line) : appliedLines parseLine (line :: lines) = [] := by
  rw [appliedLines]
  cases hparse : parseLine line with
  | none => rfl
  | some event =>
    by_cases hevent : event.eventType = .error
    . exact if_pos hevent
    . exact absurd ⟨event, hparse, hevent⟩ h

theorem applyLines_snap
    : (s.applyLines parseLine lines).snap = (appliedLines parseLine lines).foldl Snapshot.applyEvent s.snap := by
  induction lines generalizing s with
  | nil => rfl
  | cons line lines ih =>
    rw [applyLines]
    by_cases h : Usable parseLine line
    . obtain ⟨event, hparse, hevent⟩ := h
      obtain ⟨t, happly, -, -, hsnap⟩ := applyLine_usable (s := s) hparse hevent
      rw [happly, appliedLines_cons hparse hevent, List.foldl_cons, ← hsnap]
      exact ih
    . rw [applyLine_unusable h, appliedLines_unusable h]
      rfl

theorem applyLines_cases (parseLine : String → Option (WatchEvent T)) (hs : s.phase = .streaming)
    (lines : List String)
    : ((s.applyLines parseLine lines).phase = .streaming ∧ (s.applyLines parseLine lines).buf = s.buf
        ∧ ∀ lines', appliedLines parseLine (lines ++ lines')
            = appliedLines parseLine lines ++ appliedLines parseLine lines')
        ∨
      ((s.applyLines parseLine lines).phase ≠ .streaming
        ∧ ∀ lines', appliedLines parseLine (lines ++ lines') = appliedLines parseLine lines) := by
  induction lines generalizing s with
  | nil => exact .inl ⟨hs, rfl, fun _ => rfl⟩
  | cons line lines ih =>
    rw [applyLines]
    by_cases h : Usable parseLine line
    . obtain ⟨event, hparse, hevent⟩ := h
      obtain ⟨t, happly, hphase, hbuf, -⟩ := applyLine_usable (s := s) hparse hevent
      rw [happly]
      dsimp only
      rcases ih (hphase.trans hs) with ⟨hstreaming, hsame, happlied⟩ | ⟨hdropped, happlied⟩
      . left
        refine ⟨hstreaming, hsame.trans hbuf, ?_⟩
        intro lines'
        rw [List.cons_append, appliedLines_cons hparse hevent, appliedLines_cons hparse hevent, happlied]
        rfl
      . right
        refine ⟨hdropped, ?_⟩
        intro lines'
        rw [List.cons_append, appliedLines_cons hparse hevent, appliedLines_cons hparse hevent, happlied]
    . right
      rw [applyLine_unusable h]
      refine ⟨by simp [reconnect], ?_⟩
      intro lines'
      rw [List.cons_append, appliedLines_unusable h, appliedLines_unusable h]

omit [ResourceMeta T] in
theorem ne_error_of_appliedLines {event : WatchEvent T} (h : event ∈ appliedLines parseLine lines)
    : event.eventType ≠ .error := by
  induction lines with
  | nil => cases h
  | cons line lines ih =>
    by_cases husable : Usable parseLine line
    . obtain ⟨first, hparse, hfirst⟩ := husable
      rw [appliedLines_cons hparse hfirst] at h
      rcases List.mem_cons.mp h with rfl | hrest
      . exact hfirst
      . exact ih hrest
    . rw [appliedLines_unusable husable] at h
      cases h

end applyLines

section feed

variable {parseLine} {s : WatchState T}

theorem frame_snap (data : Bytes)
    : (s.frame parseLine data).snap = (s.appliedFrame parseLine data).foldl Snapshot.applyEvent s.snap := by
  unfold frame appliedFrame
  rcases takeLines (s.buf ++ data) with ⟨lines | lines, buf⟩
  . rfl
  . exact applyLines_snap

theorem feed_snap (frames : List Bytes)
    : (feed parseLine s frames).1.snap = (feed parseLine s frames).2.foldl Snapshot.applyEvent s.snap := by
  induction frames generalizing s with
  | nil => rfl
  | cons data frames ih =>
    rw [feed]
    split
    . dsimp only
      rw [List.foldl_append, ← frame_snap, ih]
    . rfl

theorem ne_error_of_feed {frames : List Bytes} {event : WatchEvent T} (h : event ∈ (feed parseLine s frames).2)
    : event.eventType ≠ .error := by
  induction frames generalizing s with
  | nil => cases h
  | cons data frames ih =>
    rw [feed] at h
    split at h
    . rcases List.mem_append.mp h with hfirst | hrest
      . unfold appliedFrame at hfirst
        split at hfirst
        . exact ne_error_of_appliedLines hfirst
        . cases hfirst
      . exact ih hrest
    . cases h

theorem feed_applied {frames : List Bytes} (hs : s.phase = .streaming) (hbuf : newline ∉ s.buf)
    (htext : IsText (s.buf ++ frames.flatten))
    : (feed parseLine s frames).2
        =
      appliedLines parseLine ((Lines.cut newline [] (s.buf ++ frames.flatten)).1.map lineOf) := by
  induction frames generalizing s with
  | nil =>
    rw [List.flatten_nil, List.append_nil, Lines.cut_of_free hbuf]
    rfl
  | cons data frames ih =>
    rw [List.flatten_cons, ← List.append_assoc] at htext ⊢
    -- The lines that the first frame completes come first, the rest of it is the buffer of the others.
    have hcut := Lines.cut_append newline [] (s.buf ++ data) frames.flatten
    have hrest : newline ∉ (Lines.cut newline [] (s.buf ++ data)).2 :=
      Lines.sep_notMem_rest (by simp) (s.buf ++ data)
    have hfirst : IsText (s.buf ++ data) := by
      intro raw hraw
      apply htext
      rw [hcut]
      exact List.mem_append_left _ hraw
    rw [feed, if_pos hs]
    dsimp only
    have hframe : s.frame parseLine data
        = applyLines parseLine { s with buf := (Lines.cut newline [] (s.buf ++ data)).2 }
            ((Lines.cut newline [] (s.buf ++ data)).1.map lineOf) := by
      unfold frame
      rw [takeLines_eq hfirst]
    have hevents : s.appliedFrame parseLine data
        = appliedLines parseLine ((Lines.cut newline [] (s.buf ++ data)).1.map lineOf) := by
      unfold appliedFrame
      rw [takeLines_eq hfirst]
    rw [hcut, hevents, hframe, List.map_append]
    have hphase : ({ s with buf := (Lines.cut newline [] (s.buf ++ data)).2 } : WatchState T).phase = .streaming := hs
    rcases applyLines_cases parseLine hphase ((Lines.cut newline [] (s.buf ++ data)).1.map lineOf)
      with ⟨hstreaming, hsame, happlied⟩ | ⟨hdropped, happlied⟩
    . have hsecond : IsText ((Lines.cut newline [] (s.buf ++ data)).2 ++ frames.flatten) := by
        intro raw hraw
        rw [Lines.cut_of_pending hrest] at hraw
        apply htext
        rw [hcut]
        exact List.mem_append_right _ hraw
      rw [happlied, ih hstreaming (by rw [hsame]; exact hrest) (by rw [hsame]; exact hsecond), hsame]
      rw [Lines.cut_of_pending hrest]
    . rw [happlied]
      cases frames with
      | nil => rw [feed, List.append_nil]
      | cons data' frames => rw [feed, if_neg hdropped, List.append_nil]

end feed

end WatchState

abbrev ObjectMap (T : Type) := String × String → Option T

namespace ObjectMap

variable {T : Type} [ResourceMeta T]

def after (server : ObjectMap T) (event : WatchEvent T) : ObjectMap T :=
  match event.eventType with
  | .added | .modified => Function.update server (Snapshot.keyOf event.object) (some event.object)
  | .deleted => Function.update server (Snapshot.keyOf event.object) none
  | .bookmark | .error => server

structure Lists (server : ObjectMap T) (items : List T) : Prop where
  mem_iff : ∀ object, object ∈ items ↔ server (Snapshot.keyOf object) = some object
  keyed : ∀ key object, server key = some object → Snapshot.keyOf object = key

end ObjectMap

namespace Snapshot

variable {T : Type} [ResourceMeta T]

def Holds (snap : Snapshot T) (server : ObjectMap T) : Prop :=
  ∀ key, snap.items.lookup key = server key

def lastResourceVersion (events : List (WatchEvent T)) (listed : String) : String :=
  ((events.map fun event => ResourceMeta.resourceVersion event.object).filter (· != "")).getLast?.getD listed

theorem lookup_foldl_insert {server : ObjectMap T} {items : List T}
    (h : ∀ item ∈ items, server (keyOf item) = some item) (m : AList fun _ : String × String => T)
    (key : String × String)
    : (items.foldl (fun m item => m.insert (keyOf item) item) m).lookup key = server key
        ∨ ((∀ item ∈ items, keyOf item ≠ key)
          ∧ (items.foldl (fun m item => m.insert (keyOf item) item) m).lookup key = m.lookup key) := by
  induction items generalizing m with
  | nil => exact .inr ⟨by simp, rfl⟩
  | cons item items ih =>
    have hitems : ∀ item ∈ items, server (keyOf item) = some item := by
      intro item' hmem
      exact h item' (List.mem_cons_of_mem _ hmem)
    rw [List.foldl_cons]
    rcases ih hitems (m.insert (keyOf item) item) with hserver | ⟨hother, hsame⟩
    . exact .inl hserver
    . by_cases hkey : keyOf item = key
      . left
        rw [hsame, ← hkey, AList.lookup_insert, h item (by simp)]
      . right
        refine ⟨?_, ?_⟩
        . intro item' hmem
          rcases List.mem_cons.mp hmem with rfl | hmem
          . exact hkey
          . exact hother item' hmem
        . rw [hsame, AList.lookup_insert_ne (Ne.symm hkey)]

theorem holds_replaceFromList {server : ObjectMap T} {items : List T} (h : server.Lists items)
    (resourceVersion : String)
    : (replaceFromList items resourceVersion).Holds server := by
  intro key
  have hitems : ∀ item ∈ items, server (keyOf item) = some item := fun item => (h.mem_iff item).mp
  rcases lookup_foldl_insert hitems ∅ key with hserver | ⟨hother, hsame⟩
  . exact hserver
  . refine hsame.trans ?_
    cases hobject : server key with
    | none => rfl
    | some object =>
      have hkey := h.keyed key object hobject
      have hmem := (h.mem_iff object).mpr (by rw [hkey, hobject])
      exact absurd hkey (hother object hmem)

theorem Holds.applyEvent {snap : Snapshot T} {server : ObjectMap T} (h : snap.Holds server)
    (event : WatchEvent T)
    : (snap.applyEvent event).Holds (server.after event) := by
  intro key
  unfold Snapshot.applyEvent ObjectMap.after
  cases event.eventType with
  | added | modified =>
    dsimp only
    rw [advance_items]
    by_cases hkey : key = keyOf event.object
    . subst hkey
      rw [AList.lookup_insert, Function.update_self]
    . rw [AList.lookup_insert_ne hkey, Function.update_of_ne hkey, h key]
  | deleted =>
    dsimp only
    rw [advance_items]
    by_cases hkey : key = keyOf event.object
    . subst hkey
      rw [AList.lookup_erase, Function.update_self]
    . rw [AList.lookup_erase_ne hkey, Function.update_of_ne hkey, h key]
  | bookmark =>
    dsimp only
    rw [advance_items, h key]
  | error => exact h key

theorem Holds.foldl {snap : Snapshot T} {server : ObjectMap T} (h : snap.Holds server)
    (events : List (WatchEvent T))
    : (events.foldl Snapshot.applyEvent snap).Holds (events.foldl ObjectMap.after server) := by
  induction events generalizing snap server with
  | nil => exact h
  | cons event events ih => exact ih (h.applyEvent event)

theorem applyEvent_resourceVersion (snap : Snapshot T) {event : WatchEvent T} (h : event.eventType ≠ .error)
    : (snap.applyEvent event).resourceVersion
        =
      if ResourceMeta.resourceVersion event.object = "" then
        snap.resourceVersion
      else
        ResourceMeta.resourceVersion event.object := by
  have hadvance : (snap.advance event.object).resourceVersion
      = if ResourceMeta.resourceVersion event.object = "" then
          snap.resourceVersion
        else
          ResourceMeta.resourceVersion event.object := by
    unfold advance
    split
    . rfl
    . rfl
  unfold applyEvent
  cases hevent : event.eventType with
  | error => exact absurd hevent h
  | added | modified | deleted | bookmark => exact hadvance

theorem foldl_resourceVersion (snap : Snapshot T) {events : List (WatchEvent T)}
    (h : ∀ event ∈ events, event.eventType ≠ .error)
    : (events.foldl Snapshot.applyEvent snap).resourceVersion
        =
      lastResourceVersion events snap.resourceVersion := by
  induction events using List.reverseRecOn with
  | nil => rfl
  | append_singleton events event ih =>
    have hbefore : ∀ event ∈ events, event.eventType ≠ .error := by
      intro event' hmem
      exact h event' (List.mem_append_left _ hmem)
    rw [List.foldl_append, List.foldl_cons, List.foldl_nil]
    rw [applyEvent_resourceVersion _ (h event (by simp)), ih hbefore]
    unfold lastResourceVersion
    rw [List.map_append, List.filter_append]
    by_cases hrv : ResourceMeta.resourceVersion event.object = ""
    . simp [hrv]
    . simp [hrv]

end Snapshot

theorem WatchState.streaming_of_listed {T : Type} [ResourceMeta T] {resync : Bool}
    {parseLine : String → Option (WatchEvent T)} {s₀ s : WatchState T} {items : List T} {resourceVersion : String}
    (hrun : Machine.run (WatchState.step resync parseLine) s₀ [.listed items resourceVersion, .opened] = some s)
    : s.phase = .streaming ∧ s.buf = [] ∧ s.snap = Snapshot.replaceFromList items resourceVersion := by
  obtain ⟨t, hlisted, hrest⟩ := (Machine.run_cons_eq_some _).mp hrun
  obtain ⟨u, hopened, hend⟩ := (Machine.run_cons_eq_some _).mp hrest
  cases hend
  unfold WatchState.step at hlisted
  -- The listing is answered in one phase only, and what the buffer held is gone by then.
  cases hbefore : s₀.phase with
  | listing =>
    rw [hbefore] at hlisted
    cases hlisted
    cases hopened
    exact ⟨rfl, rfl, rfl⟩
  | opening =>
    rw [hbefore] at hlisted
    cases hlisted
  | streaming =>
    rw [hbefore] at hlisted
    cases hlisted

theorem watch_follows_server {T : Type} [ResourceMeta T] (resync : Bool)
    (parseLine : String → Option (WatchEvent T)) (s₀ s : WatchState T) (items : List T) (resourceVersion : String)
    (hrun : Machine.run (WatchState.step resync parseLine) s₀ [.listed items resourceVersion, .opened] = some s)
    : (∀ frames : List Bytes, IsText frames.flatten →
        (WatchState.feed parseLine s frames).2
            = WatchState.appliedLines parseLine ((Lines.cut newline [] frames.flatten).1.map lineOf)
          ∧ (WatchState.feed parseLine s frames).2 = (WatchState.feed parseLine s [frames.flatten]).2
          ∧ (WatchState.feed parseLine s frames).1.snap
            = (WatchState.feed parseLine s frames).2.foldl Snapshot.applyEvent
              (Snapshot.replaceFromList items resourceVersion)
          ∧ ∀ server : ObjectMap T, server.Lists items →
            (WatchState.feed parseLine s frames).1.snap.Holds
                ((WatchState.feed parseLine s frames).2.foldl ObjectMap.after server)
              ∧ (WatchState.feed parseLine s frames).1.snap.resourceVersion
                = Snapshot.lastResourceVersion (WatchState.feed parseLine s frames).2 resourceVersion)
        ∧
      ∀ server : ObjectMap T, server.Lists items → ∀ events : List (WatchEvent T),
        (∀ event ∈ events, event.eventType ≠ .error) →
        (∀ key,
          (events.foldl Snapshot.applyEvent (Snapshot.replaceFromList items resourceVersion)).items.lookup key
            = events.foldl ObjectMap.after server key)
          ∧ (events.foldl Snapshot.applyEvent (Snapshot.replaceFromList items resourceVersion)).resourceVersion
            = Snapshot.lastResourceVersion events resourceVersion := by
  constructor
  . obtain ⟨hphase, hbuf, hsnap⟩ := WatchState.streaming_of_listed hrun
    have hempty : newline ∉ s.buf := by
      rw [hbuf]
      simp
    intro frames htext
    have hwhole : IsText (s.buf ++ frames.flatten) := by
      rw [hbuf]
      exact htext
    have hfold : (WatchState.feed parseLine s frames).1.snap
        = (WatchState.feed parseLine s frames).2.foldl Snapshot.applyEvent
          (Snapshot.replaceFromList items resourceVersion) := by
      rw [← hsnap]
      exact WatchState.feed_snap frames
    refine ⟨?_, ?_, hfold, ?_⟩
    . rw [WatchState.feed_applied hphase hempty hwhole, hbuf, List.nil_append]
    . rw [WatchState.feed_applied hphase hempty hwhole]
      rw [WatchState.feed_applied hphase hempty (by simpa using hwhole)]
      rw [List.flatten_singleton]
    . intro server hserver
      rw [hfold]
      constructor
      . exact (Snapshot.holds_replaceFromList hserver resourceVersion).foldl _
      . apply Snapshot.foldl_resourceVersion
        intro event hevent
        exact WatchState.ne_error_of_feed hevent
  . intro server hserver events hevents
    constructor
    . exact (Snapshot.holds_replaceFromList hserver resourceVersion).foldl events
    . exact Snapshot.foldl_resourceVersion _ hevents

theorem watch_follows_server_added
    : let s : WatchState WatchedObject := { WatchState.init.listed false [] "10" with phase := .streaming }
      (WatchState.feed parseAdded s [addedFrame.take 20, addedFrame.drop 20]).2
          = (WatchState.feed parseAdded s [addedFrame]).2
        ∧ ([⟨.added, addedObject⟩].foldl Snapshot.applyEvent (Snapshot.replaceFromList [] "10")).items.lookup
            ("web", "a")
          = some addedObject := by
  intro s
  have h := watch_follows_server false parseAdded WatchState.init s [] "10" rfl
  constructor
  . have hflat : [addedFrame.take 20, addedFrame.drop 20].flatten = addedFrame := by
      simp
    have hsplit := (h.1 [addedFrame.take 20, addedFrame.drop 20] (by rw [hflat]; unfold IsText; decide +kernel)).2.1
    rw [hflat] at hsplit
    exact hsplit
  . have hlist : ObjectMap.Lists (fun _ => none : ObjectMap WatchedObject) [] := by
      constructor
      . intro object
        simp
      . intro key object hobject
        cases hobject
    rw [(h.2 _ hlist [⟨.added, addedObject⟩] (by decide)).1 ("web", "a")]
    rfl

end OpenRusty
