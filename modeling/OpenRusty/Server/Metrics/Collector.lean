import OpenRusty.Lib.Binary64
import OpenRusty.Lib.FinMap
import OpenRusty.Lib.Histogram
import OpenRusty.Server.Metrics.Basic

/-!
This module contains the collector of the metrics (`metrics.rs`). Every call holds the one lock from its first
access to its last, so what any number of tasks do with it is a list of calls, in the order of the lock. The
seconds are floats.
-/

namespace OpenRusty

namespace Metrics

def durationBounds : List Float :=
  [0.005, 0.01, 0.025, 0.05, 0.1, 0.25, 0.5, 1.0, 2.5, 5.0, 10.0, 30.0, 60.0, 120.0]

def phaseBounds : List Float :=
  [25e-6, 50e-6, 100e-6, 250e-6, 500e-6, 1e-3, 2.5e-3, 5e-3, 1e-2, 2.5e-2, 5e-2, 0.1, 0.25, 0.5, 1.0]

theorem ascending_of_pairwise {bounds : List Float} (h : bounds.Pairwise (· ≤ ·))
    : Histogram.Ascending Float.le bounds :=
  h.imp fun hab _ hx => Binary64.le_trans hx hab

theorem durationBounds_ascending : Histogram.Ascending Float.le durationBounds :=
  ascending_of_pairwise (by decide +kernel)

theorem phaseBounds_ascending : Histogram.Ascending Float.le phaseBounds :=
  ascending_of_pairwise (by decide +kernel)

theorem ofDecimal_durationBuckets
    : durationBuckets.map (fun le => Binary64.ofDecimal le.toList) = durationBounds.map some := by
  decide +kernel

theorem ofDecimal_phaseBuckets
    : phaseBuckets.map (fun le => Binary64.ofDecimal le.toList) = phaseBounds.map some := by
  decide +kernel

def increment (n : Nat) : Nat := Word.wrappingAdd 64 n 1

def bump {κ : Type} [DecidableEq κ] (counts : AList fun _ : κ => Nat) (k : κ) : AList fun _ : κ => Nat :=
  counts.insert k (increment ((counts.lookup k).getD 0))

namespace PhaseHist

def empty : PhaseHist Float where
  buckets := List.replicate phaseBuckets.length 0
  buckets_length := List.length_replicate
  count := 0
  sum := 0

def observe (h : PhaseHist Float) (seconds : Float) : PhaseHist Float where
  buckets := Histogram.observe Float.le phaseBounds increment h.buckets seconds
  buckets_length := by rw [Histogram.length_observe, h.buckets_length]
  count := increment h.count
  sum := h.sum + seconds

end PhaseHist

structure MetricsState where
  requests : AList fun _ : String × Nat => Nat
  attempts : AList fun _ : String × String => Nat
  pluginErrors : AList fun _ : String × String => Nat
  transparent : AList fun _ : String × String => Nat
  dynamic : AList fun _ : String × Nat => Nat
  phases : AList fun _ : String => PhaseHist Float
  buckets : List Nat
  buckets_length : buckets.length = durationBuckets.length
  count : Nat
  sum : Float

namespace MetricsState

def new : MetricsState where
  requests := ∅
  attempts := ∅
  pluginErrors := ∅
  transparent := ∅
  dynamic := ∅
  phases := ∅
  buckets := List.replicate durationBuckets.length 0
  buckets_length := List.length_replicate
  count := 0
  sum := 0

variable (s : MetricsState)

def recordRequest (route : String) (code : Nat) : MetricsState :=
  { s with requests := bump s.requests (route, code) }

def recordDuration (seconds : Float) : MetricsState :=
  { s with
    count := increment s.count
    sum := s.sum + seconds
    buckets := Histogram.observe Float.le durationBounds increment s.buckets seconds
    buckets_length := by rw [Histogram.length_observe, s.buckets_length] }

def recordRequestTimed (route : String) (code : Nat) (seconds : Float) : MetricsState :=
  { s with
    requests := bump s.requests (route, code)
    count := increment s.count
    sum := s.sum + seconds
    buckets := Histogram.observe Float.le durationBounds increment s.buckets seconds
    buckets_length := by rw [Histogram.length_observe, s.buckets_length] }

def recordAttempt (upstream result : String) : MetricsState :=
  { s with attempts := bump s.attempts (upstream, result) }

def recordPluginError (plugin kind : String) : MetricsState :=
  { s with pluginErrors := bump s.pluginErrors (plugin, kind) }

def recordTransparent (role outcome : String) : MetricsState :=
  { s with transparent := bump s.transparent (role, outcome) }

def recordDynamic (module : String) (code : Nat) : MetricsState :=
  { s with dynamic := bump s.dynamic (module, code) }

def recordPhase (phase : String) (seconds : Float) : MetricsState :=
  { s with
    phases := s.phases.insert phase (((s.phases.lookup phase).getD PhaseHist.empty).observe seconds) }

/-- The number of invocations is not recorded. -/
def recordPhases (stats : List (String × Nat × Float)) : MetricsState :=
  stats.foldl (fun s stat => s.recordPhase stat.1 stat.2.2) s

def snapshot : MetricsSnapshot Float where
  requests := s.requests
  attempts := s.attempts
  pluginErrors := s.pluginErrors
  transparent := s.transparent
  dynamic := s.dynamic
  phases := s.phases
  buckets := s.buckets
  buckets_length := s.buckets_length
  count := s.count
  sum := s.sum

end MetricsState

inductive Call where
  | request (route : String) (code : Nat)
  | duration (seconds : Float)
  | requestTimed (route : String) (code : Nat) (seconds : Float)
  | attempt (upstream result : String)
  | pluginError (plugin kind : String)
  | transparent (role outcome : String)
  | dynamic (module : String) (code : Nat)
  | phase (phase : String) (seconds : Float)
  | phases (stats : List (String × Nat × Float))

def MetricsState.call (s : MetricsState) (c : Call) : MetricsState :=
  match c with
  | .request route code => s.recordRequest route code
  | .duration seconds => s.recordDuration seconds
  | .requestTimed route code seconds => s.recordRequestTimed route code seconds
  | .attempt upstream result => s.recordAttempt upstream result
  | .pluginError plugin kind => s.recordPluginError plugin kind
  | .transparent role outcome => s.recordTransparent role outcome
  | .dynamic module code => s.recordDynamic module code
  | .phase phase seconds => s.recordPhase phase seconds
  | .phases stats => s.recordPhases stats

def collect (calls : List (Call)) : MetricsSnapshot Float := (calls.foldl MetricsState.call .new).snapshot

/-!
What a call counts for, family by family.
-/

namespace Call

def requestKeys (c : Call) : List (String × Nat) :=
  match c with
  | .request route code | .requestTimed route code _ => [(route, code)]
  | _ => []

def durations (c : Call) : List Float :=
  match c with
  | .duration seconds | .requestTimed _ _ seconds => [seconds]
  | _ => []

def attemptKeys (c : Call) : List (String × String) :=
  match c with
  | .attempt upstream result => [(upstream, result)]
  | _ => []

def pluginErrorKeys (c : Call) : List (String × String) :=
  match c with
  | .pluginError plugin kind => [(plugin, kind)]
  | _ => []

def transparentKeys (c : Call) : List (String × String) :=
  match c with
  | .transparent role outcome => [(role, outcome)]
  | _ => []

def dynamicKeys (c : Call) : List (String × Nat) :=
  match c with
  | .dynamic module code => [(module, code)]
  | _ => []

def phaseTimes (c : Call) : List (String × Float) :=
  match c with
  | .phase name seconds => [(name, seconds)]
  | .phases stats => stats.map fun stat => (stat.1, stat.2.2)
  | _ => []

end Call

def counted {κ : Type} [DecidableEq κ] (keys : List κ) (k : κ) : Option Nat :=
  if k ∈ keys then some (keys.count k % 2 ^ 64) else none

theorem iterate_increment (k : Nat) : increment^[k] 0 = k % 2 ^ 64 := by
  have h := Histogram.iterate_wrappingAdd 64 k (n := 0) (by decide)
  rwa [Nat.zero_add] at h

theorem lookup_foldl_bump {κ : Type} [DecidableEq κ] (keys : List κ) (k : κ)
    : (keys.foldl bump ∅).lookup k = counted keys k := by
  have h := AList.lookup_foldl_update (fun k : κ => k) (fun n _ => increment n) 0 keys ∅ k
  have hfilter : (keys.filter fun x => x = k).length = keys.count k := by
    rw [List.count, List.countP_eq_length_filter]
    congr 1
  change (keys.foldl bump ∅).lookup k = _ at h
  rw [h, counted, AList.lookup_empty, Option.getD_none, List.foldl_const, iterate_increment, hfilter]
  by_cases hmem : k ∈ keys
  . rw [if_pos hmem, if_neg]
    apply List.ne_nil_of_mem (a := k)
    simpa using hmem
  . rw [if_neg hmem, if_pos]
    rw [List.filter_eq_nil_iff]
    intro x hx
    simp only [decide_eq_true_eq]
    rintro rfl
    exact hmem hx

section phases

variable (h : PhaseHist Float) (xs : List Float)

theorem PhaseHist.buckets_foldl
    : (xs.foldl (PhaseHist.observe) h).buckets
        = xs.foldl (Histogram.observe Float.le phaseBounds increment) h.buckets := by
  induction xs generalizing h with
  | nil => rfl
  | cons x xs ih => rw [List.foldl_cons, List.foldl_cons, ih]; rfl

theorem PhaseHist.count_foldl : (xs.foldl (PhaseHist.observe) h).count = increment^[xs.length] h.count := by
  induction xs generalizing h with
  | nil => rfl
  | cons x xs ih => rw [List.foldl_cons, ih, List.length_cons, Function.iterate_succ_apply]; rfl

theorem PhaseHist.sum_foldl : (xs.foldl PhaseHist.observe h).sum = xs.foldl (· + ·) h.sum := by
  induction xs generalizing h with
  | nil => rfl
  | cons x xs ih => rw [List.foldl_cons, ih]; rfl

def addPhase (phases : AList fun _ : String => PhaseHist Float) (p : String × Float) : AList fun _ : String => PhaseHist Float :=
  phases.insert p.1 (((phases.lookup p.1).getD PhaseHist.empty).observe p.2)

theorem phases_recordPhases (s : MetricsState) (stats : List (String × Nat × Float))
    : (s.recordPhases stats).phases = (stats.map fun stat => (stat.1, stat.2.2)).foldl addPhase s.phases := by
  unfold MetricsState.recordPhases
  induction stats generalizing s with
  | nil => rfl
  | cons stat stats ih => rw [List.foldl_cons, ih, List.map_cons, List.foldl_cons]; rfl

theorem recordPhases_frame {β : Type} {f : MetricsState → β}
    (hf : ∀ s phase seconds, f (s.recordPhase phase seconds) = f s) (s : MetricsState)
    (stats : List (String × Nat × Float))
    : f (s.recordPhases stats) = f s := by
  unfold MetricsState.recordPhases
  induction stats generalizing s with
  | nil => rfl
  | cons stat stats ih => rw [List.foldl_cons, ih, hf]

def timesOf (phase : String) (times : List (String × Float)) : List Float :=
  (times.filter fun p => p.1 = phase).map Prod.snd

theorem lookup_foldl_addPhase (times : List (String × Float)) (phase : String)
    : (times.foldl addPhase ∅).lookup phase
        =
      if timesOf phase times = [] then
        none
      else
        some ((timesOf phase times).foldl (PhaseHist.observe) PhaseHist.empty) := by
  have h := AList.lookup_foldl_update (fun p : String × Float => p.1) (fun h p => PhaseHist.observe h p.2)
    PhaseHist.empty times ∅ phase
  change (times.foldl addPhase ∅).lookup phase = _ at h
  rw [h, AList.lookup_empty, timesOf, List.foldl_map]
  by_cases hnil : (times.filter fun p => p.1 = phase) = []
  . rw [if_pos hnil, if_pos (by rw [hnil, List.map_nil])]
  . rw [if_neg hnil, if_neg (by rwa [List.map_eq_nil_iff])]
    rfl

end phases

theorem collect_counters (calls : List (Call))
    : (∀ k, (collect calls).requests.lookup k = counted (calls.flatMap Call.requestKeys) k)
        ∧ (∀ k, (collect calls).attempts.lookup k = counted (calls.flatMap Call.attemptKeys) k)
        ∧ (∀ k, (collect calls).pluginErrors.lookup k = counted (calls.flatMap Call.pluginErrorKeys) k)
        ∧ (∀ k, (collect calls).transparent.lookup k = counted (calls.flatMap Call.transparentKeys) k)
        ∧ ∀ k, (collect calls).dynamic.lookup k = counted (calls.flatMap Call.dynamicKeys) k := by
  have hfield : ∀ {κ : Type} [DecidableEq κ] (f : MetricsState → AList fun _ : κ => Nat)
      (keys : Call → List κ), f .new = ∅ →
      (∀ s phase seconds, f (s.recordPhase phase seconds) = f s) →
      (∀ s c, (∀ stats, c ≠ .phases stats) → f (s.call c) = (keys c).foldl bump (f s)) →
      (∀ stats, keys (.phases stats) = []) →
      ∀ k, (f (calls.foldl MetricsState.call .new)).lookup k = counted (calls.flatMap keys) k := by
    intro κ _ f keys hnew hphase hcall hphases k
    rw [Histogram.foldl_part f _ keys bump _ calls, hnew, lookup_foldl_bump]
    intro s c
    cases c with
    | phases stats =>
      rw [hphases]
      exact recordPhases_frame hphase s stats
    | _ => exact hcall s _ (by intro stats h; cases h)
  refine ⟨?_, ?_, ?_, ?_, ?_⟩
  . refine hfield MetricsState.requests Call.requestKeys rfl (fun _ _ _ => rfl) ?_ (fun _ => rfl)
    intro s c hc
    cases c <;> first | rfl | exact absurd rfl (hc _)
  . refine hfield MetricsState.attempts Call.attemptKeys rfl (fun _ _ _ => rfl) ?_ (fun _ => rfl)
    intro s c hc
    cases c <;> first | rfl | exact absurd rfl (hc _)
  . refine hfield MetricsState.pluginErrors Call.pluginErrorKeys rfl (fun _ _ _ => rfl) ?_ (fun _ => rfl)
    intro s c hc
    cases c <;> first | rfl | exact absurd rfl (hc _)
  . refine hfield MetricsState.transparent Call.transparentKeys rfl (fun _ _ _ => rfl) ?_ (fun _ => rfl)
    intro s c hc
    cases c <;> first | rfl | exact absurd rfl (hc _)
  . refine hfield MetricsState.dynamic Call.dynamicKeys rfl (fun _ _ _ => rfl) ?_ (fun _ => rfl)
    intro s c hc
    cases c <;> first | rfl | exact absurd rfl (hc _)

end Metrics

end OpenRusty
