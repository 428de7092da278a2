import OpenRusty.Core.Num
import OpenRusty.Server.Metrics.Lemmas

/-!
This module contains the proof that the samples of the metrics are of different series: the keys of the
counters are, the bounds of the histograms are, and what is left are the names of the peers and the plugins.
-/

namespace OpenRusty
namespace Metrics

open Exposition (Sample Distinct)

section family

variable {β : Type} {label₁ label₂ : String} {raw : β → String}

theorem distinct_counterSamples (name : String) (hne : label₁ ≠ label₂) (hraw : raw.Injective)
    (counts : AList fun _ : String × β => Nat)
    : Distinct (counterSamples name label₁ label₂ raw counts) := by
  have hkeys : (counts.entries.map Sigma.fst).Nodup := counts.nodupKeys
  unfold counterSamples Distinct
  rw [List.pairwise_map]
  rw [List.Nodup, List.pairwise_map] at hkeys
  apply hkeys.imp
  intro d e hde hsame
  have hlabels := hsame.labels_eq rfl (by simp [hne])
  simp only [List.cons.injEq, Prod.mk.injEq, true_and, and_true] at hlabels
  exact hde (Prod.ext hlabels.1 (hraw hlabels.2))

variable {bucket sum count : String} {labels : List (String × String)} {bounds : List String} {buckets : List Nat}
  {n : Nat} {total : String}

theorem mem_histogramSamples {s : Sample}
    (h : s ∈ histogramSamples bucket sum count labels bounds buckets n total)
    : (s.name = bucket ∧ ∃ b, s.labels = labels ++ [("le", b)])
        ∨ ((s.name = sum ∨ s.name = count) ∧ s.labels = labels) := by
  unfold histogramSamples at h
  rcases List.mem_append.mp h with h | h
  . rcases List.mem_map.mp h with ⟨b, -, rfl⟩
    exact .inl ⟨rfl, b.1, rfl⟩
  . simp only [List.mem_cons, List.not_mem_nil, or_false] at h
    rcases h with rfl | rfl | rfl
    . exact .inl ⟨rfl, "+Inf", rfl⟩
    . exact .inr ⟨.inl rfl, rfl⟩
    . exact .inr ⟨.inr rfl, rfl⟩

theorem distinct_histogramSamples (hbuckets : buckets.length = bounds.length) (hbounds : (bounds ++ ["+Inf"]).Nodup)
    (hsum : bucket ≠ sum) (hcount : bucket ≠ count) (hne : sum ≠ count)
    : Distinct (histogramSamples bucket sum count labels bounds buckets n total) := by
  have hbound : ∀ {b b' : String} {m m' : Nat}, b ≠ b' →
      ¬Sample.SameSeries { name := bucket, labels := labels ++ [("le", b)], value := .integer m }
        { name := bucket, labels := labels ++ [("le", b')], value := .integer m' } := by
    intro b b' m m' hb hsame
    have hlast := (List.perm_append_left_iff labels).mp hsame.2
    rw [List.singleton_perm_singleton, Prod.mk.injEq] at hlast
    exact hb hlast.2
  rw [List.nodup_append] at hbounds
  have hzip : ((bounds.zip buckets).map Prod.fst).Nodup := by
    rw [List.map_fst_zip (by omega)]
    exact hbounds.1
  rw [List.Nodup, List.pairwise_map] at hzip
  unfold histogramSamples Distinct
  rw [List.pairwise_append]
  refine ⟨?_, ?_, ?_⟩
  . rw [List.pairwise_map]
    exact hzip.imp fun hb => hbound hb
  . simp [Sample.SameSeries, hsum, hcount, hne]
  . intro s hs t ht
    rcases List.mem_map.mp hs with ⟨b, hb, rfl⟩
    simp only [List.mem_cons, List.not_mem_nil, or_false] at ht
    rcases ht with rfl | rfl | rfl
    . exact hbound (hbounds.2.2 b.1 (List.of_mem_zip hb).1 "+Inf" (by simp))
    . intro hsame
      exact hsum hsame.1
    . intro hsame
      exact hcount hsame.1

theorem phase_mem_iff {phase other : String} {s : Sample}
    (hs : s ∈ histogramSamples bucket sum count [("phase", phase)] bounds buckets n total)
    : ("phase", other) ∈ s.labels ↔ other = phase := by
  rcases mem_histogramSamples hs with ⟨-, b, hlabels⟩ | ⟨-, hlabels⟩
  . rw [hlabels]
    simp
  . rw [hlabels]
    simp

end family

section families

variable {φ : Type} (fmt : FloatFormat φ) (snap : MetricsSnapshot φ)

theorem distinct_peers_iff (peers : LivePeers)
    : Distinct (peers.map peerSample) ↔ (peers.map fun p => (p.1, p.2.1)).Nodup := by
  have hsame : ∀ p q : String × String × Bool,
      (peerSample p).SameSeries (peerSample q) ↔ (p.1, p.2.1) = (q.1, q.2.1) := by
    intro p q
    constructor
    . intro hsame
      have hlabels := hsame.labels_eq rfl (by simp [peerSample])
      simpa [peerSample] using hlabels
    . intro heq
      rw [Prod.mk.injEq] at heq
      refine ⟨rfl, ?_⟩
      unfold peerSample
      rw [heq.1, heq.2]
  unfold Distinct List.Nodup
  rw [List.pairwise_map, List.pairwise_map]
  simp only [hsame, ne_eq]

theorem distinct_kv (kv : KvView) (h : (kv.map Prod.fst).Nodup) : Distinct (kv.map kvSample) := by
  rw [List.Nodup, List.pairwise_map] at h
  unfold Distinct
  rw [List.pairwise_map]
  apply h.imp
  intro d e hde hsame
  have hlabels := hsame.labels_eq rfl (by simp [kvSample])
  apply hde
  simpa [kvSample] using hlabels

theorem distinct_phaseSamples : Distinct (phaseSamples fmt snap) := by
  have hkeys : (snap.phases.entries.map Sigma.fst).Nodup := snap.phases.nodupKeys
  rw [List.Nodup, List.pairwise_map] at hkeys
  unfold phaseSamples Distinct
  rw [List.pairwise_flatMap]
  constructor
  . intro e _
    apply distinct_histogramSamples e.2.buckets_length (by decide) (by decide) (by decide) (by decide)
  . apply hkeys.imp
    intro d e hde s hs t ht hsame
    have hphase := (phase_mem_iff hs).mpr rfl
    rw [hsame.2.mem_iff, phase_mem_iff ht] at hphase
    exact hde hphase

theorem names_of_families {peers : LivePeers} {kv : KvView} {errors : AList fun _ : String × String => Nat}
    {f : List String × List Sample} (hf : f ∈ families fmt snap peers kv errors) {s : Sample} (hs : s ∈ f.2)
    : s.name ∈ f.1 := by
  have hcounter : ∀ {β : Type} {name label₁ label₂ : String} {raw : β → String}
      {counts : AList fun _ : String × β => Nat},
      s ∈ counterSamples name label₁ label₂ raw counts → s.name ∈ [name] := by
    intro β name label₁ label₂ raw counts hs
    rcases List.mem_map.mp hs with ⟨e, -, rfl⟩
    exact List.mem_singleton.mpr rfl
  have hhistogram : ∀ {bucket sum count : String} {labels : List (String × String)} {bounds : List String}
      {buckets : List Nat} {n : Nat} {total : String},
      s ∈ histogramSamples bucket sum count labels bounds buckets n total → s.name ∈ [bucket, sum, count] := by
    intro bucket sum count labels bounds buckets n total hs
    rcases mem_histogramSamples hs with ⟨hname, -⟩ | ⟨hname | hname, -⟩ <;> simp [hname]
  simp only [families, List.mem_cons, List.not_mem_nil, or_false] at hf
  rcases hf with rfl | rfl | rfl | rfl | rfl | rfl | rfl | rfl | rfl
  . exact hcounter hs
  . exact hhistogram hs
  . exact hcounter hs
  . exact hcounter hs
  . exact hcounter hs
  . exact hcounter hs
  . rcases List.mem_map.mp hs with ⟨p, -, rfl⟩
    exact List.mem_singleton.mpr rfl
  . rcases List.mem_map.mp hs with ⟨e, -, rfl⟩
    exact List.mem_singleton.mpr rfl
  . rcases List.mem_flatMap.mp hs with ⟨e, -, hs⟩
    exact hhistogram hs

theorem distinct_samplesOf_iff {peers : LivePeers} {kv : KvView} (hkv : (kv.map Prod.fst).Nodup)
    (errors : AList fun _ : String × String => Nat)
    : Distinct (samplesOf fmt snap peers kv errors) ↔ (peers.map fun p => (p.1, p.2.1)).Nodup := by
  have htext : Function.Injective (toString : Nat → String) := by
    intro m n h
    exact toString_injective (congrArg String.toList h)
  have hdisjoint : (families fmt snap peers kv errors).Pairwise fun f g => ∀ name ∈ f.1, name ∉ g.1 := by
    simp [families]
  have hrest : ∀ f ∈ families fmt snap peers kv errors,
      f = (["openrusty_peer_healthy"], peers.map peerSample) ∨ Distinct f.2 := by
    simp only [families, List.mem_cons, List.not_mem_nil, or_false]
    rintro f (rfl | rfl | rfl | rfl | rfl | rfl | rfl | rfl | rfl)
    . exact .inr (distinct_counterSamples _ (by decide) htext _)
    . exact .inr (distinct_histogramSamples snap.buckets_length (by decide) (by decide) (by decide) (by decide))
    . exact .inr (distinct_counterSamples _ (by decide) Function.injective_id _)
    . exact .inr (distinct_counterSamples _ (by decide) Function.injective_id _)
    . exact .inr (distinct_counterSamples _ (by decide) Function.injective_id _)
    . exact .inr (distinct_counterSamples _ (by decide) htext _)
    . exact .inl rfl
    . exact .inr (distinct_kv kv hkv)
    . exact .inr (distinct_phaseSamples fmt snap)
  unfold samplesOf
  rw [Exposition.distinct_flatMap_iff (fun f hf s hs => names_of_families fmt snap hf hs) hdisjoint,
    ← distinct_peers_iff]
  constructor
  . intro h
    exact h (["openrusty_peer_healthy"], peers.map peerSample) (by simp [families])
  . intro h f hf
    rcases hrest f hf with rfl | hdistinct
    . exact h
    . exact hdistinct

end families

end Metrics
end OpenRusty
