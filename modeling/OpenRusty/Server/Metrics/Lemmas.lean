import OpenRusty.Lib.Exposition
import OpenRusty.Server.Metrics.Basic
import OpenRusty.Wasm.Registry.Lemmas

/-!
This module contains what a reader of the metrics gets: the samples that the text carries, and when they are
exactly the counters and gauges that it was made from, each under a series of its own.
-/

namespace OpenRusty
namespace Metrics

open Exposition (Sample Line Writes isWord isLabelStart isLabelChar isNameStart isNameChar isToken readValue)

theorem toList_escapeLabel (v : String) : (escapeLabel v).toList = Exposition.escape v.toList := by
  unfold escapeLabel
  rw [String.toList_ofList]
  rfl

theorem escapeLabel_of_free {v : String} (h : ∀ c ∈ v.toList, c ≠ '\\' ∧ c ≠ '"' ∧ c ≠ '\n') : escapeLabel v = v := by
  rw [← String.toList_inj, toList_escapeLabel, Exposition.escape_of_free h]

theorem escapeLabel_toString (n : Nat) : escapeLabel (toString n) = toString n := by
  apply escapeLabel_of_free
  intro c hc
  have hdigit := (Exposition.digits_toString n).2 c hc
  refine ⟨?_, ?_, ?_⟩ <;> rintro rfl <;> cases hdigit

theorem intercalate_labelText (ls : List (String × String))
    : [','].intercalate (ls.map Exposition.labelText) = Exposition.labelsText ls := by
  induction ls with
  | nil => rfl
  | cons l ls ih =>
    cases ls with
    | nil => simp [Exposition.labelsText]
    | cons l' ls =>
      have hcons : Exposition.labelsText (l :: l' :: ls)
          = Exposition.labelText l ++ ',' :: Exposition.labelsText (l' :: ls) := by
        rfl
      rw [List.map_cons] at ih
      rw [List.map_cons, List.map_cons, List.intercalate_cons_cons, ih, hcons]
      simp

theorem toList_series (name : String) (ls : List (String × String)) (value : String)
    : (series name (ls.map fun l => (l.1, escapeLabel l.2)) value).toList
        =
      (Line.sample name ls value).text ++ ['\n'] := by
  have hlabels : (",".intercalate (ls.map fun l => l.1 ++ "=\"" ++ escapeLabel l.2 ++ "\"")).toList
      = Exposition.labelsText ls := by
    rw [String.toList_intercalate, List.map_map, ← intercalate_labelText]
    congr 2
    funext l
    simp [Exposition.labelText, toList_escapeLabel]
  unfold series Line.text
  cases ls with
  | nil => simp
  | cons l ls =>
    have hmap : ((l :: ls).map fun l => (l.1, escapeLabel l.2)).map (fun l => l.1 ++ "=\"" ++ l.2 ++ "\"")
        = (l :: ls).map fun l => l.1 ++ "=\"" ++ escapeLabel l.2 ++ "\"" := by
      rw [List.map_map]
      rfl
    have hempty : ((l :: ls).map fun l => (l.1, escapeLabel l.2)).isEmpty = false := by
      rfl
    simp only [hempty, hmap, Bool.false_eq_true, if_false, String.toList_append, hlabels, reduceCtorEq]
    simp

theorem writes_series {name : String} {ls : List (String × String)} {value : String}
    (hname : isWord isNameStart isNameChar name = true)
    (hls : Exposition.IsLabels ls) (hvalue : isToken value = true)
    : Writes (series name (ls.map fun l => (l.1, escapeLabel l.2)) value).toList
        [{ name := name, labels := ls, value := readValue value }] := by
  rw [toList_series]
  exact .sample ⟨hname, hls, hvalue⟩

theorem writes_header {name help kind : String} (hname : '\n' ∉ name.toList) (hhelp : '\n' ∉ help.toList)
    (hkind : '\n' ∉ kind.toList)
    : Writes (header name help kind).toList [] := by
  have hfirst : Writes ("# HELP " ++ name ++ " " ++ help ++ "\n").toList [] := by
    have h : Writes (("# HELP " ++ name ++ " " ++ help).toList ++ ['\n']) [] :=
      .comment (by simp) (by simp [hname, hhelp])
    simpa using h
  have hsecond : Writes ("# TYPE " ++ name ++ " " ++ kind ++ "\n").toList [] := by
    have h : Writes (("# TYPE " ++ name ++ " " ++ kind).toList ++ ['\n']) [] :=
      .comment (by simp) (by simp [hname, hkind])
    simpa using h
  have h := hfirst.append hsecond
  rw [← String.toList_append] at h
  unfold header
  simpa [String.append_assoc] using h

theorem writes_append {s t : String} {xs ys : List Sample} (hs : Writes s.toList xs) (ht : Writes t.toList ys)
    : Writes (s ++ t).toList (xs ++ ys) := by
  rw [String.toList_append]
  exact hs.append ht

theorem writes_join {α : Type} {l : List α} {f : α → String} {g : α → List Sample}
    (h : ∀ a ∈ l, Writes (f a).toList (g a))
    : Writes (String.join (l.map f)).toList (l.flatMap g) := by
  rw [String.toList_join, List.flatMap_map]
  exact .flatMap h

/-!
The samples of the families, in no particular order.
-/

section samples

variable {β : Type}

def counterSamples (name label₁ label₂ : String) (raw : β → String) (counts : AList fun _ : String × β => Nat)
    : List Sample :=
  counts.entries.map fun e =>
    { name := name, labels := [(label₁, e.1.1), (label₂, raw e.1.2)], value := .integer e.2 }

theorem writes_counter [LE β] [DecidableLE β] {name help label₁ label₂ : String} {write raw : β → String}
    (hname : isWord isNameStart isNameChar name = true) (hhelp : '\n' ∉ help.toList)
    (h₁ : isWord isLabelStart isLabelChar label₁ = true) (h₂ : isWord isLabelStart isLabelChar label₂ = true)
    (hwrite : ∀ b, write b = escapeLabel (raw b)) (counts : AList fun _ : String × β => Nat)
    : Writes (counter name help label₁ label₂ write counts).toList
        (counterSamples name label₁ label₂ raw counts) := by
  have hnewline := Exposition.newline_notMem_word (by decide) (by decide) hname
  have hheader : Writes (header name help "counter").toList [] := writes_header hnewline hhelp (by decide)
  have hlines := writes_join (l := counts.entries.insertionSort fun a b => keyLe a.1 b.1)
    (f := fun e => series name [(label₁, escapeLabel e.1.1), (label₂, write e.1.2)] (toString e.2))
    (g := fun e =>
      [{ name := name, labels := [(label₁, e.1.1), (label₂, raw e.1.2)], value := .integer e.2 }]) <| by
    intro e _
    have hlabels : Exposition.IsLabels [(label₁, e.1.1), (label₂, raw e.1.2)] := by
      simp [Exposition.IsLabels, h₁, h₂]
    have h := writes_series hname hlabels (Exposition.isToken_toString e.2)
    rw [Exposition.readValue_toString] at h
    rw [hwrite]
    exact h
  unfold counter counterSamples
  apply (writes_append hheader hlines).perm
  rw [List.nil_append, ← List.map_eq_flatMap]
  exact (List.perm_insertionSort _ _).map _

def histogramSamples (bucket sum count : String) (labels : List (String × String)) (bounds : List String)
    (buckets : List Nat) (n : Nat) (total : String)
    : List Sample :=
  (bounds.zip buckets).map (fun b => { name := bucket, labels := labels ++ [("le", b.1)], value := .integer b.2 })
    ++ [{ name := bucket, labels := labels ++ [("le", "+Inf")], value := .integer n },
      { name := sum, labels := labels, value := readValue total },
      { name := count, labels := labels, value := .integer n }]

def escaped (ls : List (String × String)) : List (String × String) := ls.map fun l => (l.1, escapeLabel l.2)

theorem writes_histogram {bucket sum count : String} {ls : List (String × String)} {bounds : List String}
    (hbucket : isWord isNameStart isNameChar bucket = true) (hsum : isWord isNameStart isNameChar sum = true)
    (hcount : isWord isNameStart isNameChar count = true) (hls : Exposition.IsLabels ls)
    (hbounds : ∀ b ∈ bounds, escapeLabel b = b) (buckets : List Nat) (n : Nat) {total : String}
    (htotal : isToken total = true)
    : Writes (String.join ((bounds.zip buckets).map fun b =>
            series bucket (escaped ls ++ [("le", b.1)]) (toString b.2))
          ++ series bucket (escaped ls ++ [("le", "+Inf")]) (toString n) ++ series sum (escaped ls) total
          ++ series count (escaped ls) (toString n)).toList
        (histogramSamples bucket sum count ls bounds buckets n total) := by
  have hle : ∀ b : String, Exposition.IsLabels (ls ++ [("le", b)]) := by
    intro b l hl
    rcases List.mem_append.mp hl with hl | hl
    . exact hls l hl
    . cases List.mem_singleton.mp hl
      show isWord isLabelStart isLabelChar "le" = true
      decide
  have hline : ∀ (b : String) (m : Nat), escapeLabel b = b →
      Writes (series bucket (escaped ls ++ [("le", b)]) (toString m)).toList
        [{ name := bucket, labels := ls ++ [("le", b)], value := .integer m }] := by
    intro b m hb
    have h := writes_series hbucket (hle b) (Exposition.isToken_toString m)
    rw [Exposition.readValue_toString, List.map_append, List.map_singleton, hb] at h
    exact h
  have hlines := writes_join (l := bounds.zip buckets)
    (f := fun b => series bucket (escaped ls ++ [("le", b.1)]) (toString b.2))
    (g := fun b => [{ name := bucket, labels := ls ++ [("le", b.1)], value := .integer b.2 }]) <| by
    intro b hb
    exact hline b.1 b.2 (hbounds b.1 (List.of_mem_zip hb).1)
  rw [← List.map_eq_flatMap] at hlines
  have hinf := hline "+Inf" n (by decide)
  have hsum : Writes (series sum (escaped ls) total).toList _ := writes_series hsum hls htotal
  have hcount : Writes (series count (escaped ls) (toString n)).toList _ :=
    writes_series hcount hls (Exposition.isToken_toString n)
  rw [Exposition.readValue_toString] at hcount
  have h := writes_append (writes_append (writes_append hlines hinf) hsum) hcount
  unfold histogramSamples
  rw [List.append_assoc, List.append_assoc] at h
  exact h

end samples

section families

variable {φ : Type} (fmt : FloatFormat φ) (snap : MetricsSnapshot φ)

theorem isToken_formatSum (v : φ) : isToken (formatSum fmt v) = true := by
  have hchars : ∀ c ∈ (trimEnd '.' (trimEnd '0' (fmt.print v))).toList, c.isAlphanum = true ∨ c = '.' ∨ c = '-' := by
    intro c hc
    unfold trimEnd at hc
    rw [String.toList_ofList, String.toList_ofList] at hc
    exact fmt.plain v c ((List.rdropWhile_prefix _ _).mem ((List.rdropWhile_prefix _ _).mem hc))
  unfold formatSum
  dsimp only
  split
  . decide
  . next hempty =>
    unfold isToken
    rw [Bool.and_eq_true, Bool.not_eq_true', List.all_eq_true]
    refine ⟨by simpa using hempty, ?_⟩
    intro c hc
    have hplain := hchars c hc
    simp only [Bool.and_eq_true, Bool.not_eq_true', bne_iff_ne, Exposition.isBlank, Bool.or_eq_false_iff,
      beq_eq_false_iff_ne]
    refine ⟨⟨⟨?_, ?_⟩, ?_⟩, ?_⟩ <;> rintro rfl <;> revert hplain <;> decide

def peerSample (p : String × String × Bool) : Sample where
  name := "openrusty_peer_healthy"
  labels := [("upstream", p.1), ("addr", p.2.1)]
  value := .integer (if p.2.2 then 1 else 0)

def kvSample (e : String × Nat) : Sample where
  name := "openrusty_kv_entries"
  labels := [("plugin", e.1)]
  value := .integer e.2

def phaseSamples : List Sample :=
  snap.phases.entries.flatMap fun e =>
    histogramSamples "openrusty_plugin_phase_seconds_bucket" "openrusty_plugin_phase_seconds_sum"
      "openrusty_plugin_phase_seconds_count" [("phase", e.1)] phaseBuckets e.2.buckets e.2.count
      (formatSum fmt e.2.sum)

def families (peers : LivePeers) (kv : KvView) (errors : AList fun _ : String × String => Nat)
    : List (List String × List Sample) :=
  [
    (["openrusty_requests_total"], counterSamples "openrusty_requests_total" "route" "code" toString snap.requests),
    (["openrusty_request_duration_seconds_bucket", "openrusty_request_duration_seconds_sum",
        "openrusty_request_duration_seconds_count"],
      histogramSamples "openrusty_request_duration_seconds_bucket" "openrusty_request_duration_seconds_sum"
        "openrusty_request_duration_seconds_count" [] durationBuckets snap.buckets snap.count
        (formatSum fmt snap.sum)),
    (["openrusty_upstream_attempts_total"],
      counterSamples "openrusty_upstream_attempts_total" "upstream" "result" id snap.attempts),
    (["openrusty_plugin_errors_total"], counterSamples "openrusty_plugin_errors_total" "plugin" "kind" id errors),
    (["openrusty_transparent_conns_total"],
      counterSamples "openrusty_transparent_conns_total" "role" "outcome" id snap.transparent),
    (["openrusty_dynamic_requests_total"],
      counterSamples "openrusty_dynamic_requests_total" "module" "code" toString snap.dynamic),
    (["openrusty_peer_healthy"], peers.map peerSample),
    (["openrusty_kv_entries"], kv.map kvSample),
    (["openrusty_plugin_phase_seconds_bucket", "openrusty_plugin_phase_seconds_sum",
        "openrusty_plugin_phase_seconds_count"],
      phaseSamples fmt snap)
  ]

def samplesOf (peers : LivePeers) (kv : KvView) (errors : AList fun _ : String × String => Nat) : List Sample :=
  (families fmt snap peers kv errors).flatMap Prod.snd

theorem writes_peerHealthy (peers : LivePeers) : Writes (peerHealthy peers).toList (peers.map peerSample) := by
  have hheader : Writes (header "openrusty_peer_healthy" "Whether an upstream peer is currently healthy."
      "gauge").toList [] :=
    writes_header (by simp) (by simp) (by simp)
  have hlines := writes_join (l := peers.insertionSort peerLe)
    (f := fun p => series "openrusty_peer_healthy" [("upstream", escapeLabel p.1), ("addr", escapeLabel p.2.1)]
      (toString (if p.2.2 then 1 else 0)))
    (g := fun p => [peerSample p]) <| by
    intro p _
    have hlabels : Exposition.IsLabels [("upstream", p.1), ("addr", p.2.1)] := by
      simp [Exposition.IsLabels]
      decide
    have h : Writes (series "openrusty_peer_healthy" (escaped [("upstream", p.1), ("addr", p.2.1)])
        (toString (if p.2.2 then 1 else 0))).toList _ :=
      writes_series (by decide) hlabels (Exposition.isToken_toString _)
    rw [Exposition.readValue_toString] at h
    exact h
  unfold peerHealthy
  apply (writes_append hheader hlines).perm
  rw [List.nil_append, ← List.map_eq_flatMap]
  exact (List.perm_insertionSort _ _).map _

theorem writes_kvEntries (kv : KvView) : Writes (kvEntries kv).toList (kv.map kvSample) := by
  have hheader : Writes (header "openrusty_kv_entries" "Live KV entries held by each plugin." "gauge").toList [] :=
    writes_header (by simp) (by simp) (by simp)
  have hlines := writes_join (l := kv.insertionSort fun a b => a.1 ≤ b.1)
    (f := fun e => series "openrusty_kv_entries" [("plugin", escapeLabel e.1)] (toString e.2))
    (g := fun e => [kvSample e]) <| by
    intro e _
    have hlabels : Exposition.IsLabels [("plugin", e.1)] := by
      simp [Exposition.IsLabels]
      decide
    have h : Writes (series "openrusty_kv_entries" (escaped [("plugin", e.1)]) (toString e.2)).toList _ :=
      writes_series (by decide) hlabels (Exposition.isToken_toString _)
    rw [Exposition.readValue_toString] at h
    exact h
  unfold kvEntries
  apply (writes_append hheader hlines).perm
  rw [List.nil_append, ← List.map_eq_flatMap]
  exact (List.perm_insertionSort _ _).map _

theorem writes_requestDurationSeconds : Writes (requestDurationSeconds fmt snap).toList
    (histogramSamples "openrusty_request_duration_seconds_bucket" "openrusty_request_duration_seconds_sum"
      "openrusty_request_duration_seconds_count" [] durationBuckets snap.buckets snap.count
      (formatSum fmt snap.sum)) := by
  have hheader : Writes (header "openrusty_request_duration_seconds" "Request handling duration in seconds."
      "histogram").toList [] :=
    writes_header (by simp) (by simp) (by simp)
  have hlabels : Exposition.IsLabels [] := by simp [Exposition.IsLabels]
  have hlines := @writes_histogram "openrusty_request_duration_seconds_bucket"
    "openrusty_request_duration_seconds_sum" "openrusty_request_duration_seconds_count" [] durationBuckets
    (by decide) (by decide) (by decide) hlabels (by decide) snap.buckets snap.count _ (isToken_formatSum fmt snap.sum)
  have h := writes_append hheader hlines
  rw [← String.append_assoc, ← String.append_assoc, ← String.append_assoc] at h
  exact h

theorem writes_phaseSeries (phase : String) (hist : PhaseHist φ) : Writes (phaseSeries fmt phase hist).toList
    (histogramSamples "openrusty_plugin_phase_seconds_bucket" "openrusty_plugin_phase_seconds_sum"
      "openrusty_plugin_phase_seconds_count" [("phase", phase)] phaseBuckets hist.buckets hist.count
      (formatSum fmt hist.sum)) := by
  have hlabels : Exposition.IsLabels [("phase", phase)] := by
    simp [Exposition.IsLabels]
    decide
  exact writes_histogram (by decide) (by decide) (by decide) hlabels (by decide) hist.buckets hist.count
    (isToken_formatSum fmt hist.sum)

theorem writes_pluginPhaseSeconds : Writes (pluginPhaseSeconds fmt snap).toList (phaseSamples fmt snap) := by
  have hheader : Writes (header "openrusty_plugin_phase_seconds"
      "Total wall time spent in each plugin phase per request." "histogram").toList [] :=
    writes_header (by simp) (by simp) (by simp)
  have hlines := writes_join (l := snap.phases.entries.insertionSort fun a b => a.1 ≤ b.1)
    fun e _ => writes_phaseSeries fmt e.1 e.2
  unfold pluginPhaseSeconds phaseSamples
  apply (writes_append hheader hlines).perm
  exact (List.perm_insertionSort _ _).flatMap_right _

theorem writes_dynamicRequestsTotal : Writes (dynamicRequestsTotal snap).toList
    (counterSamples "openrusty_dynamic_requests_total" "module" "code" toString snap.dynamic) := by
  unfold dynamicRequestsTotal
  split
  . next hempty =>
    rw [List.isEmpty_iff] at hempty
    unfold counterSamples
    rw [hempty]
    exact .nil
  . exact writes_counter (by decide) (by simp) (by decide) (by decide)
      (fun b => (escapeLabel_toString b).symm) snap.dynamic

theorem writes_render (peers : LivePeers) (kv : KvView) (errors : ErrorView)
    : Writes (render fmt snap peers kv errors).toList
        (samplesOf fmt snap peers kv (mergeErrors (Word.wrappingAdd 64) snap.pluginErrors errors)) := by
  have hrequests : Writes (requestsTotal snap).toList
      (counterSamples "openrusty_requests_total" "route" "code" toString snap.requests) :=
    writes_counter (by decide) (by simp) (by decide) (by decide) (fun b => (escapeLabel_toString b).symm) _
  have hattempts : Writes (upstreamAttemptsTotal snap).toList
      (counterSamples "openrusty_upstream_attempts_total" "upstream" "result" id snap.attempts) :=
    writes_counter (by decide) (by simp) (by decide) (by decide) (fun _ => rfl) _
  have herrors : Writes (pluginErrorsTotal snap errors).toList
      (counterSamples "openrusty_plugin_errors_total" "plugin" "kind" id
        (mergeErrors (Word.wrappingAdd 64) snap.pluginErrors errors)) :=
    writes_counter (by decide) (by simp) (by decide) (by decide) (fun _ => rfl) _
  have htransparent : Writes (transparentConnsTotal snap).toList
      (counterSamples "openrusty_transparent_conns_total" "role" "outcome" id snap.transparent) :=
    writes_counter (by decide) (by simp) (by decide) (by decide) (fun _ => rfl) _
  have h := writes_append hrequests (writes_requestDurationSeconds fmt snap)
  have h := writes_append (writes_append (writes_append h hattempts) herrors) htransparent
  have h := writes_append (writes_append h (writes_dynamicRequestsTotal snap)) (writes_peerHealthy peers)
  have h := writes_append (writes_append h (writes_kvEntries kv)) (writes_pluginPhaseSeconds fmt snap)
  unfold render samplesOf families
  simp only [List.flatMap_cons, List.flatMap_nil, List.append_nil]
  simpa only [List.append_assoc] using h

end families

end Metrics
end OpenRusty
