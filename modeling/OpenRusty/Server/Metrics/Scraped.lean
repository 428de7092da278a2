import OpenRusty.Server.Metrics.Collector
import OpenRusty.Server.Metrics.Series

/-!
This module contains what a scrape reads of the collector: behind any calls of any tasks, every counter is the
number of the calls with its labels, and every bucket the number of the times that are not beyond its bound.
-/

namespace OpenRusty

namespace Metrics

open Exposition (Sample readValue)

section histograms

def within (le : String) (times : List Float) : Nat :=
  times.countP fun t => (Binary64.ofDecimal le.toList).any fun bound => t.le bound

theorem within_eq {le : String} {bound : Float} (h : Binary64.ofDecimal le.toList = some bound) (times : List Float)
    : within le times = times.countP fun t => t.le bound := by
  unfold within
  rw [h]
  rfl

theorem getElem?_bounds {labels : List String} {bounds : List Float}
    (h : labels.map (fun le => Binary64.ofDecimal le.toList) = bounds.map some) {i : Nat} {le : String}
    (hle : labels[i]? = some le)
    : ∃ bound, bounds[i]? = some bound ∧ Binary64.ofDecimal le.toList = some bound := by
  have hi := congrArg (fun l => l[i]?) h
  rw [List.getElem?_map, List.getElem?_map, hle, Option.map_some] at hi
  obtain ⟨bound, hbound, hread⟩ := Option.map_eq_some_iff.mp hi.symm
  exact ⟨bound, hbound, hread.symm⟩

theorem getElem?_replicate_zero {n i : Nat} (h : i < n) : (List.replicate n 0)[i]? = some 0 := by
  rw [List.getElem?_replicate, if_pos h]

theorem getElem?_buckets (calls : List Call) {i : Nat} {le : String} (hle : durationBuckets[i]? = some le)
    : (collect calls).buckets[i]? = some (within le (calls.flatMap Call.durations) % 2 ^ 64) := by
  obtain ⟨bound, hbound, hread⟩ := getElem?_bounds ofDecimal_durationBuckets hle
  have hlt : i < durationBuckets.length := (List.getElem?_eq_some_iff.mp hle).1
  have hpart := Histogram.foldl_part MetricsState.buckets MetricsState.call Call.durations
    (Histogram.observe Float.le durationBounds increment)
  change (calls.foldl MetricsState.call .new).buckets[i]? = _
  rw [hpart, Histogram.getElem?_foldl_observe durationBounds_ascending hbound, MetricsState.new,
    getElem?_replicate_zero hlt, Option.map_some, iterate_increment, within_eq hread]
  intro s c
  cases c with
  | phases stats => exact recordPhases_frame (fun _ _ _ => rfl) s stats
  | _ => rfl

theorem count_collect (calls : List Call)
    : (collect calls).count = (calls.flatMap Call.durations).length % 2 ^ 64 := by
  have hpart := Histogram.foldl_part MetricsState.count MetricsState.call Call.durations fun n _ => increment n
  rw [collect, MetricsState.snapshot, hpart, List.foldl_const, MetricsState.new, iterate_increment]
  intro s c
  cases c with
  | phases stats => exact recordPhases_frame (fun _ _ _ => rfl) s stats
  | _ => rfl

/-- The sum, in the order of the calls: the addition of floats is not associative. -/
def total (times : List Float) : Float := times.foldl (· + ·) 0

theorem sum_collect (calls : List Call) : (collect calls).sum = total (calls.flatMap Call.durations) := by
  have hpart := Histogram.foldl_part MetricsState.sum MetricsState.call Call.durations fun x y => x + y
  rw [collect, MetricsState.snapshot, hpart]
  . rfl
  . intro s c
    cases c with
    | phases stats => exact recordPhases_frame (fun _ _ _ => rfl) s stats
    | _ => rfl

theorem phases_collect (calls : List Call) (phase : String)
    : (collect calls).phases.lookup phase
        =
      if timesOf phase (calls.flatMap Call.phaseTimes) = [] then
        none
      else
        some ((timesOf phase (calls.flatMap Call.phaseTimes)).foldl PhaseHist.observe PhaseHist.empty) := by
  have hpart := Histogram.foldl_part MetricsState.phases MetricsState.call Call.phaseTimes addPhase
  rw [collect, MetricsState.snapshot, hpart, MetricsState.new, lookup_foldl_addPhase]
  intro s c
  cases c with
  | phases stats => exact phases_recordPhases s stats
  | _ => rfl

structure PhaseHist.Of (h : PhaseHist Float) (times : List Float) : Prop where
  count : h.count = times.length % 2 ^ 64
  sum : h.sum = total times
  buckets : ∀ {i : Nat} {le}, phaseBuckets[i]? = some le → h.buckets[i]? = some (within le times % 2 ^ 64)

theorem PhaseHist.of_foldl (times : List Float) : (times.foldl PhaseHist.observe PhaseHist.empty).Of times where
  count := by rw [PhaseHist.count_foldl, PhaseHist.empty, iterate_increment]
  sum := PhaseHist.sum_foldl _ times
  buckets := by
    intro i le hle
    obtain ⟨bound, hbound, hread⟩ := getElem?_bounds ofDecimal_phaseBuckets hle
    have hlt : i < phaseBuckets.length := (List.getElem?_eq_some_iff.mp hle).1
    rw [PhaseHist.buckets_foldl, Histogram.getElem?_foldl_observe phaseBounds_ascending hbound, PhaseHist.empty,
      getElem?_replicate_zero hlt, Option.map_some, iterate_increment, within_eq hread]

theorem exists_hist_iff {calls : List Call} {phase : String} {p : PhaseHist Float → Prop} {q : Prop}
    (hpq : ∀ h : PhaseHist Float, h.Of (timesOf phase (calls.flatMap Call.phaseTimes)) → (p h ↔ q))
    : (∃ h, (collect calls).phases.lookup phase = some h ∧ p h)
        ↔ timesOf phase (calls.flatMap Call.phaseTimes) ≠ [] ∧ q := by
  rw [phases_collect]
  by_cases hnil : timesOf phase (calls.flatMap Call.phaseTimes) = []
  . simp [hnil]
  . rw [if_neg hnil]
    constructor
    . rintro ⟨h, hh, hp⟩
      cases hh
      exact ⟨hnil, (hpq _ (PhaseHist.of_foldl _)).mp hp⟩
    . rintro ⟨-, hq⟩
      exact ⟨_, rfl, (hpq _ (PhaseHist.of_foldl _)).mpr hq⟩

end histograms

section read

variable {φ : Type} (fmt : FloatFormat φ) (snap : MetricsSnapshot φ)

theorem mem_samplesOf_of_name {peers : LivePeers} {kv : KvView} {errors : AList fun _ : String × String => Nat}
    {f : List String × List Sample} (hf : f ∈ families fmt snap peers kv errors) {s : Sample} (hs : s.name ∈ f.1)
    : s ∈ samplesOf fmt snap peers kv errors ↔ s ∈ f.2 := by
  have hdisjoint : (families fmt snap peers kv errors).Pairwise fun f g => ∀ name ∈ f.1, name ∉ g.1 := by
    simp [families]
  have huniq : ∀ g ∈ families fmt snap peers kv errors, s.name ∈ g.1 → g = f := by
    intro g hg hsg
    by_contra hne
    rcases List.mem_iff_getElem.mp hf with ⟨i, hi, rfl⟩
    rcases List.mem_iff_getElem.mp hg with ⟨j, hj, rfl⟩
    rcases Nat.lt_trichotomy i j with hij | rfl | hij
    . exact List.pairwise_iff_getElem.mp hdisjoint i j hi hj hij _ hs hsg
    . exact hne rfl
    . exact List.pairwise_iff_getElem.mp hdisjoint j i hj hi hij _ hsg hs
  unfold samplesOf
  rw [List.mem_flatMap]
  constructor
  . rintro ⟨g, hg, hmem⟩
    rwa [← huniq g hg (names_of_families fmt snap hg hmem)]
  . intro hmem
    exact ⟨f, hf, hmem⟩

section counter

variable {β : Type} {name label₁ label₂ : String} {raw : β → String}

theorem mem_counterSamples_iff (hraw : raw.Injective) {counts : AList fun _ : String × β => Nat} {a : String} {b : β}
    {n : Nat} [DecidableEq β]
    : ({ name := name, labels := [(label₁, a), (label₂, raw b)], value := .integer n } : Sample)
          ∈ counterSamples name label₁ label₂ raw counts
        ↔ counts.lookup (a, b) = some n := by
  rw [← Option.mem_def, AList.mem_lookup_iff]
  unfold counterSamples
  rw [List.mem_map]
  constructor
  . rintro ⟨⟨⟨a', b'⟩, m⟩, he, heq⟩
    simp only [Sample.mk.injEq, List.cons.injEq, Prod.mk.injEq, true_and, and_true, Exposition.Value.integer.injEq]
      at heq
    obtain ⟨⟨rfl, hb⟩, rfl⟩ := heq
    cases hraw hb
    exact he
  . intro he
    exact ⟨_, he, rfl⟩

end counter

theorem mem_histogramSamples_iff (bucket sum count : String) (ls : List (String × String)) {bounds : List String}
    {buckets : List Nat} (hbounds : (bounds ++ ["+Inf"]).Nodup) (hlen : buckets.length = bounds.length)
    (hsum : bucket ≠ sum) (hcount : bucket ≠ count) {i : Nat} {le : String} (hle : bounds[i]? = some le) (k n : Nat)
    (total : String)
    : ({ name := bucket, labels := ls ++ [("le", le)], value := .integer n } : Sample)
          ∈ histogramSamples bucket sum count ls bounds buckets k total
        ↔ buckets[i]? = some n := by
  rw [List.nodup_append] at hbounds
  have hinf : le ≠ "+Inf" := hbounds.2.2 le (List.mem_of_getElem? hle) "+Inf" (by simp)
  obtain ⟨hi, hlei⟩ := List.getElem?_eq_some_iff.mp hle
  unfold histogramSamples
  rw [List.mem_append, List.mem_map]
  constructor
  . rintro (⟨⟨b, m⟩, hmem, heq⟩ | htail)
    . obtain ⟨j, hj, hzip⟩ := List.mem_iff_getElem.mp hmem
      rw [List.getElem_zip, Prod.mk.injEq] at hzip
      simp only [Sample.mk.injEq, List.append_cancel_left_eq, List.cons.injEq, Prod.mk.injEq, true_and, and_true,
        Exposition.Value.integer.injEq] at heq
      obtain ⟨hb, hm⟩ := heq
      rw [List.length_zip] at hj
      have hij : j = i := by
        apply (List.Nodup.getElem_inj_iff hbounds.1).mp
        rw [hzip.1, hb, hlei]
      subst hij
      rw [List.getElem?_eq_some_iff]
      exact ⟨by omega, hzip.2.trans hm⟩
    . simp [hinf, hsum, hcount] at htail
  . intro hn
    left
    refine ⟨(le, n), ?_, rfl⟩
    obtain ⟨hj, hbi⟩ := List.getElem?_eq_some_iff.mp hn
    rw [List.mem_iff_getElem]
    exact ⟨i, by rw [List.length_zip]; omega, by rw [List.getElem_zip, hlei, hbi]⟩

theorem mem_histogramSamples_inf_iff (bucket sum count : String) (ls : List (String × String)) {bounds : List String}
    {buckets : List Nat} (hbounds : (bounds ++ ["+Inf"]).Nodup) (hsum : bucket ≠ sum) (hcount : bucket ≠ count)
    (k n : Nat) (total : String)
    : ({ name := bucket, labels := ls ++ [("le", "+Inf")], value := .integer n } : Sample)
          ∈ histogramSamples bucket sum count ls bounds buckets k total
        ↔ n = k := by
  rw [List.nodup_append] at hbounds
  unfold histogramSamples
  rw [List.mem_append, List.mem_map]
  constructor
  . rintro (⟨⟨b, m⟩, hmem, heq⟩ | htail)
    . simp only [Sample.mk.injEq, List.append_cancel_left_eq, List.cons.injEq, Prod.mk.injEq, true_and, and_true] at heq
      exact absurd heq.1 (hbounds.2.2 b (List.of_mem_zip hmem).1 "+Inf" (by simp))
    . simpa [hsum, hcount] using htail
  . rintro rfl
    exact .inr (by simp)

theorem mem_histogramSamples_count_iff (bucket sum count : String) (ls : List (String × String))
    (bounds : List String) (buckets : List Nat) (hcount : bucket ≠ count) (hne : sum ≠ count) (k n : Nat)
    (total : String)
    : ({ name := count, labels := ls, value := .integer n } : Sample)
          ∈ histogramSamples bucket sum count ls bounds buckets k total
        ↔ n = k := by
  unfold histogramSamples
  rw [List.mem_append, List.mem_map]
  constructor
  . rintro (⟨b, -, heq⟩ | htail)
    . exact absurd (congrArg Sample.name heq) hcount
    . simpa [hcount.symm, hne.symm] using htail
  . rintro rfl
    exact .inr (by simp)

theorem mem_histogramSamples_sum_iff (bucket sum count : String) (ls : List (String × String))
    (bounds : List String) (buckets : List Nat) (hsum : bucket ≠ sum) (hne : sum ≠ count) (k : Nat)
    (v : Exposition.Value) (total : String)
    : ({ name := sum, labels := ls, value := v } : Sample)
          ∈ histogramSamples bucket sum count ls bounds buckets k total
        ↔ v = readValue total := by
  unfold histogramSamples
  rw [List.mem_append, List.mem_map]
  constructor
  . rintro (⟨b, -, heq⟩ | htail)
    . exact absurd (congrArg Sample.name heq) hsum
    . simpa [hsum.symm, hne] using htail
  . rintro rfl
    exact .inr (by simp)

def requestSample (route : String) (code n : Nat) : Sample where
  name := "openrusty_requests_total"
  labels := [("route", route), ("code", toString code)]
  value := .integer n

def attemptSample (upstream result : String) (n : Nat) : Sample where
  name := "openrusty_upstream_attempts_total"
  labels := [("upstream", upstream), ("result", result)]
  value := .integer n

def transparentSample (role outcome : String) (n : Nat) : Sample where
  name := "openrusty_transparent_conns_total"
  labels := [("role", role), ("outcome", outcome)]
  value := .integer n

def dynamicSample (module : String) (code n : Nat) : Sample where
  name := "openrusty_dynamic_requests_total"
  labels := [("module", module), ("code", toString code)]
  value := .integer n

def durationSample (le : String) (n : Nat) : Sample where
  name := "openrusty_request_duration_seconds_bucket"
  labels := [("le", le)]
  value := .integer n

def phaseSample (phase le : String) (n : Nat) : Sample where
  name := "openrusty_plugin_phase_seconds_bucket"
  labels := [("phase", phase), ("le", le)]
  value := .integer n

def durationCountSample (n : Nat) : Sample where
  name := "openrusty_request_duration_seconds_count"
  labels := []
  value := .integer n

def phaseCountSample (phase : String) (n : Nat) : Sample where
  name := "openrusty_plugin_phase_seconds_count"
  labels := [("phase", phase)]
  value := .integer n

def durationSumSample (v : Exposition.Value) : Sample where
  name := "openrusty_request_duration_seconds_sum"
  labels := []
  value := v

def phaseSumSample (phase : String) (v : Exposition.Value) : Sample where
  name := "openrusty_plugin_phase_seconds_sum"
  labels := [("phase", phase)]
  value := v

def durationHistogram : List Sample :=
  histogramSamples "openrusty_request_duration_seconds_bucket" "openrusty_request_duration_seconds_sum"
    "openrusty_request_duration_seconds_count" [] durationBuckets snap.buckets snap.count (formatSum fmt snap.sum)

def phaseHistogram (phase : String) (h : PhaseHist φ) : List Sample :=
  histogramSamples "openrusty_plugin_phase_seconds_bucket" "openrusty_plugin_phase_seconds_sum"
    "openrusty_plugin_phase_seconds_count" [("phase", phase)] phaseBuckets h.buckets h.count (formatSum fmt h.sum)

theorem mem_phaseSamples_iff {phase : String} {s : Sample} (hs : ∀ other, ("phase", other) ∈ s.labels ↔ other = phase)
    : s ∈ phaseSamples fmt snap
        ↔ ∃ h, snap.phases.lookup phase = some h ∧ s ∈ phaseHistogram fmt phase h := by
  unfold phaseSamples
  rw [List.mem_flatMap]
  constructor
  . rintro ⟨⟨other, h⟩, he, hmem⟩
    cases (hs other).mp ((phase_mem_iff hmem).mpr rfl)
    exact ⟨h, AList.mem_lookup_iff.mpr he, hmem⟩
  . rintro ⟨h, hlookup, hmem⟩
    exact ⟨⟨phase, h⟩, AList.mem_lookup_iff.mp hlookup, hmem⟩

variable {peers : LivePeers} {kv : KvView} {errors : AList fun _ : String × String => Nat}

theorem mem_samplesOf_duration_iff {s : Sample}
    (hs : s.name ∈ ["openrusty_request_duration_seconds_bucket", "openrusty_request_duration_seconds_sum",
      "openrusty_request_duration_seconds_count"])
    : s ∈ samplesOf fmt snap peers kv errors ↔ s ∈ durationHistogram fmt snap :=
  mem_samplesOf_of_name (f := (_, durationHistogram fmt snap)) fmt snap (by simp [families]; rfl) hs

theorem mem_samplesOf_phase_iff (phase : String) {s : Sample}
    (hname : s.name ∈ ["openrusty_plugin_phase_seconds_bucket", "openrusty_plugin_phase_seconds_sum",
      "openrusty_plugin_phase_seconds_count"])
    (hs : ∀ other, ("phase", other) ∈ s.labels ↔ other = phase)
    : s ∈ samplesOf fmt snap peers kv errors
        ↔ ∃ h, snap.phases.lookup phase = some h ∧ s ∈ phaseHistogram fmt phase h :=
  (mem_samplesOf_of_name (f := (_, phaseSamples fmt snap)) fmt snap (by simp [families]) hname).trans
    (mem_phaseSamples_iff fmt snap hs)

end read

section collected

variable (fmt : FloatFormat Float) (calls : List Call) (peers : LivePeers) (kv : KvView)
  (errors : AList fun _ : String × String => Nat)

theorem mem_requestSample_iff (route : String) (code n : Nat)
    : requestSample route code n ∈ samplesOf fmt (collect calls) peers kv errors
        ↔ counted (calls.flatMap Call.requestKeys) (route, code) = some n := by
  have htext : Function.Injective (toString : Nat → String) :=
    fun m n h => toString_injective (congrArg String.toList h)
  rw [mem_samplesOf_of_name (f := (["openrusty_requests_total"], _)) fmt _ (by simp [families]; rfl)
    (by simp [requestSample]), ← (collect_counters calls).1]
  exact mem_counterSamples_iff htext

theorem mem_attemptSample_iff (upstream result : String) (n : Nat)
    : attemptSample upstream result n ∈ samplesOf fmt (collect calls) peers kv errors
        ↔ counted (calls.flatMap Call.attemptKeys) (upstream, result) = some n := by
  rw [mem_samplesOf_of_name (f := (["openrusty_upstream_attempts_total"], _)) fmt _ (by simp [families]; rfl)
    (by simp [attemptSample]), ← (collect_counters calls).2.1]
  exact mem_counterSamples_iff Function.injective_id

theorem mem_transparentSample_iff (role outcome : String) (n : Nat)
    : transparentSample role outcome n ∈ samplesOf fmt (collect calls) peers kv errors
        ↔ counted (calls.flatMap Call.transparentKeys) (role, outcome) = some n := by
  rw [mem_samplesOf_of_name (f := (["openrusty_transparent_conns_total"], _)) fmt _ (by simp [families]; rfl)
    (by simp [transparentSample]), ← (collect_counters calls).2.2.2.1]
  exact mem_counterSamples_iff Function.injective_id

theorem mem_dynamicSample_iff (module : String) (code n : Nat)
    : dynamicSample module code n ∈ samplesOf fmt (collect calls) peers kv errors
        ↔ counted (calls.flatMap Call.dynamicKeys) (module, code) = some n := by
  have htext : Function.Injective (toString : Nat → String) :=
    fun m n h => toString_injective (congrArg String.toList h)
  rw [mem_samplesOf_of_name (f := (["openrusty_dynamic_requests_total"], _)) fmt _ (by simp [families]; rfl)
    (by simp [dynamicSample]), ← (collect_counters calls).2.2.2.2]
  exact mem_counterSamples_iff htext

theorem mem_durationSample_iff {le : String} (hle : le ∈ durationBuckets) (n : Nat)
    : durationSample le n ∈ samplesOf fmt (collect calls) peers kv errors
        ↔ n = within le (calls.flatMap Call.durations) % 2 ^ 64 := by
  obtain ⟨i, hi⟩ := List.mem_iff_getElem?.mp hle
  rw [mem_samplesOf_duration_iff fmt _ (by simp [durationSample])]
  refine (mem_histogramSamples_iff _ _ _ [] (by decide) (collect calls).buckets_length (by decide) (by decide)
    hi _ n _).trans ?_
  rw [getElem?_buckets calls hi, Option.some.injEq, eq_comm]

theorem mem_durationSample_inf_iff (n : Nat)
    : durationSample "+Inf" n ∈ samplesOf fmt (collect calls) peers kv errors
        ↔ n = (calls.flatMap Call.durations).length % 2 ^ 64 := by
  rw [mem_samplesOf_duration_iff fmt _ (by simp [durationSample]), ← count_collect calls]
  exact mem_histogramSamples_inf_iff _ _ _ [] (by decide) (by decide) (by decide) _ n _

theorem mem_durationCountSample_iff (n : Nat)
    : durationCountSample n ∈ samplesOf fmt (collect calls) peers kv errors
        ↔ n = (calls.flatMap Call.durations).length % 2 ^ 64 := by
  rw [mem_samplesOf_duration_iff fmt _ (by simp [durationCountSample]), ← count_collect calls]
  exact mem_histogramSamples_count_iff _ _ _ [] _ _ (by decide) (by decide) _ n _

theorem mem_durationSumSample_iff (v : Exposition.Value)
    : durationSumSample v ∈ samplesOf fmt (collect calls) peers kv errors
        ↔ v = readValue (formatSum fmt (total (calls.flatMap Call.durations))) := by
  rw [mem_samplesOf_duration_iff fmt _ (by simp [durationSumSample]), ← sum_collect calls]
  exact mem_histogramSamples_sum_iff _ _ _ [] _ _ (by decide) (by decide) _ v _

theorem mem_phaseSample_iff (phase : String) {le : String} (hle : le ∈ phaseBuckets) (n : Nat)
    : phaseSample phase le n ∈ samplesOf fmt (collect calls) peers kv errors
        ↔ timesOf phase (calls.flatMap Call.phaseTimes) ≠ []
          ∧ n = within le (timesOf phase (calls.flatMap Call.phaseTimes)) % 2 ^ 64 := by
  obtain ⟨i, hi⟩ := List.mem_iff_getElem?.mp hle
  rw [mem_samplesOf_phase_iff fmt _ phase (by simp [phaseSample]) (by simp [phaseSample])]
  apply exists_hist_iff
  intro h hof
  refine (mem_histogramSamples_iff _ _ _ [("phase", phase)] (by decide) h.buckets_length (by decide) (by decide)
    hi _ n _).trans ?_
  rw [hof.buckets hi, Option.some.injEq, eq_comm]

theorem mem_phaseSample_inf_iff (phase : String) (n : Nat)
    : phaseSample phase "+Inf" n ∈ samplesOf fmt (collect calls) peers kv errors
        ↔ timesOf phase (calls.flatMap Call.phaseTimes) ≠ []
          ∧ n = (timesOf phase (calls.flatMap Call.phaseTimes)).length % 2 ^ 64 := by
  rw [mem_samplesOf_phase_iff fmt _ phase (by simp [phaseSample]) (by simp [phaseSample])]
  apply exists_hist_iff
  intro h hof
  rw [← hof.count]
  exact mem_histogramSamples_inf_iff _ _ _ [("phase", phase)] (by decide) (by decide) (by decide) _ n _

theorem mem_phaseCountSample_iff (phase : String) (n : Nat)
    : phaseCountSample phase n ∈ samplesOf fmt (collect calls) peers kv errors
        ↔ timesOf phase (calls.flatMap Call.phaseTimes) ≠ []
          ∧ n = (timesOf phase (calls.flatMap Call.phaseTimes)).length % 2 ^ 64 := by
  rw [mem_samplesOf_phase_iff fmt _ phase (by simp [phaseCountSample]) (by simp [phaseCountSample])]
  apply exists_hist_iff
  intro h hof
  rw [← hof.count]
  exact mem_histogramSamples_count_iff _ _ _ [("phase", phase)] _ _ (by decide) (by decide) _ n _

theorem mem_phaseSumSample_iff (phase : String) (v : Exposition.Value)
    : phaseSumSample phase v ∈ samplesOf fmt (collect calls) peers kv errors
        ↔ timesOf phase (calls.flatMap Call.phaseTimes) ≠ []
          ∧ v = readValue (formatSum fmt (total (timesOf phase (calls.flatMap Call.phaseTimes)))) := by
  rw [mem_samplesOf_phase_iff fmt _ phase (by simp [phaseSumSample]) (by simp [phaseSumSample])]
  apply exists_hist_iff
  intro h hof
  rw [← hof.sum]
  exact mem_histogramSamples_sum_iff _ _ _ [("phase", phase)] _ _ (by decide) (by decide) _ v _

end collected

/-- Behind any calls, whatever is live besides, the text is read back as the numbers of the calls, family by family. -/
theorem scrape_exact (fmt : FloatFormat Float) (calls : List Call) (peers : LivePeers) (kv : KvView)
    (errors : ErrorView)
    : ∃ parsed, Exposition.parse (render fmt (collect calls) peers kv errors).toList = some parsed
        ∧ (∀ route code n, requestSample route code n ∈ parsed
          ↔ counted (calls.flatMap Call.requestKeys) (route, code) = some n)
        ∧ (∀ upstream result n, attemptSample upstream result n ∈ parsed
          ↔ counted (calls.flatMap Call.attemptKeys) (upstream, result) = some n)
        ∧ (∀ role outcome n, transparentSample role outcome n ∈ parsed
          ↔ counted (calls.flatMap Call.transparentKeys) (role, outcome) = some n)
        ∧ (∀ module code n, dynamicSample module code n ∈ parsed
          ↔ counted (calls.flatMap Call.dynamicKeys) (module, code) = some n)
        ∧ (∀ le ∈ durationBuckets, ∀ n, durationSample le n ∈ parsed
          ↔ n = within le (calls.flatMap Call.durations) % 2 ^ 64)
        ∧ (∀ n, (durationSample "+Inf" n ∈ parsed ↔ n = (calls.flatMap Call.durations).length % 2 ^ 64)
          ∧ (durationCountSample n ∈ parsed ↔ n = (calls.flatMap Call.durations).length % 2 ^ 64))
        ∧ (∀ v, durationSumSample v ∈ parsed
          ↔ v = readValue (formatSum fmt (total (calls.flatMap Call.durations))))
        ∧ (∀ phase, ∀ le ∈ phaseBuckets, ∀ n, phaseSample phase le n ∈ parsed
          ↔ timesOf phase (calls.flatMap Call.phaseTimes) ≠ []
            ∧ n = within le (timesOf phase (calls.flatMap Call.phaseTimes)) % 2 ^ 64)
        ∧ (∀ phase n, (phaseSample phase "+Inf" n ∈ parsed ↔ timesOf phase (calls.flatMap Call.phaseTimes) ≠ []
            ∧ n = (timesOf phase (calls.flatMap Call.phaseTimes)).length % 2 ^ 64)
          ∧ (phaseCountSample phase n ∈ parsed ↔ timesOf phase (calls.flatMap Call.phaseTimes) ≠ []
            ∧ n = (timesOf phase (calls.flatMap Call.phaseTimes)).length % 2 ^ 64))
        ∧ ∀ phase v, phaseSumSample phase v ∈ parsed
          ↔ timesOf phase (calls.flatMap Call.phaseTimes) ≠ []
            ∧ v = readValue (formatSum fmt (total (timesOf phase (calls.flatMap Call.phaseTimes)))) := by
  obtain ⟨parsed, hparse, hperm⟩ := (writes_render fmt (collect calls) peers kv errors).parse
  refine ⟨parsed, hparse, ?_, ?_, ?_, ?_, ?_, ?_, ?_, ?_, ?_, ?_⟩
  . intro route code n
    rw [hperm.mem_iff, mem_requestSample_iff]
  . intro upstream result n
    rw [hperm.mem_iff, mem_attemptSample_iff]
  . intro role outcome n
    rw [hperm.mem_iff, mem_transparentSample_iff]
  . intro module code n
    rw [hperm.mem_iff, mem_dynamicSample_iff]
  . intro le hle n
    rw [hperm.mem_iff, mem_durationSample_iff fmt calls _ _ _ hle]
  . intro n
    rw [hperm.mem_iff, hperm.mem_iff, mem_durationSample_inf_iff, mem_durationCountSample_iff]
    exact ⟨Iff.rfl, Iff.rfl⟩
  . intro v
    rw [hperm.mem_iff, mem_durationSumSample_iff]
  . intro phase le hle n
    rw [hperm.mem_iff, mem_phaseSample_iff fmt calls _ _ _ phase hle]
  . intro phase n
    rw [hperm.mem_iff, hperm.mem_iff, mem_phaseSample_inf_iff, mem_phaseCountSample_iff]
    exact ⟨Iff.rfl, Iff.rfl⟩
  . intro phase v
    rw [hperm.mem_iff, mem_phaseSumSample_iff]

def sixDecimals : FloatFormat Float where
  print := Binary64.toFixed 6
  plain _ _ := Binary64.plain_toFixed 6 _

def threeRequests : List Call :=
  [.requestTimed "api" 200 0.005, .requestTimed "api" 200 0.3, .phases [("access", 1, 25e-6), ("log", 1, 2.0)],
    .requestTimed "a\"b" 502 150.0]

theorem scrape_exact_threeRequests
    : ∃ parsed, Exposition.parse (render sixDecimals (collect threeRequests) [] [] []).toList = some parsed
        ∧ requestSample "api" 200 2 ∈ parsed ∧ requestSample "a\"b" 502 1 ∈ parsed
        ∧ durationSample "0.005" 1 ∈ parsed ∧ durationSample "0.25" 1 ∈ parsed ∧ durationSample "120" 2 ∈ parsed
        ∧ durationSample "+Inf" 3 ∈ parsed ∧ durationSumSample (.other "150.305") ∈ parsed
        ∧ phaseSample "access" "0.000025" 1 ∈ parsed ∧ phaseSample "log" "1" 0 ∈ parsed
        ∧ ∀ n, phaseSample "balancer" "1" n ∉ parsed := by
  obtain ⟨parsed, hparse, hrequest, -, -, -, hduration, hcount, hsum, hphase, -, -⟩ :=
    scrape_exact sixDecimals threeRequests [] [] []
  refine ⟨parsed, hparse, ?_, ?_, ?_, ?_, ?_, ?_, ?_, ?_, ?_, ?_⟩
  . rw [hrequest]
    decide +kernel
  . rw [hrequest]
    decide +kernel
  . rw [hduration _ (by decide)]
    decide +kernel
  . rw [hduration _ (by decide)]
    decide +kernel
  . rw [hduration _ (by decide)]
    decide +kernel
  . rw [(hcount 3).1]
    decide +kernel
  . rw [hsum]
    decide +kernel
  . rw [hphase _ _ (by decide)]
    decide +kernel
  . rw [hphase _ _ (by decide)]
    decide +kernel
  . intro n
    rw [hphase _ _ (by decide)]
    rintro ⟨hne, -⟩
    exact hne (by decide +kernel)

end Metrics

end OpenRusty
