import OpenRusty.Lib.Fallible
import OpenRusty.Server.Inject.Basic

/-!
This module contains what accepted annotations say about the parameters: a parameter is what its own
annotation reads as, or its default without that annotation, whatever the other annotations are.
-/

namespace OpenRusty

namespace Inject

section stripPrefix

theorem stripPrefix_eq_some {s p name : String} : stripPrefix s p = some name ↔ s = p ++ name := by
  unfold stripPrefix
  split
  . next h =>
    rcases startsWith_iff.mp h with ⟨rest, hrest⟩
    rw [Option.some.injEq, ← hrest, List.drop_left, ← String.toList_inj, ← String.toList_inj, ← hrest]
    simp
  . next h =>
    constructor
    . intro h'
      cases h'
    . rintro rfl
      exfalso
      apply h
      rw [startsWith_iff, String.toList_append]
      exact List.prefix_append _ _

end stripPrefix

section annotation

variable {debug : String → String} {β : Type}

structure SetBy (debug : String → String) (name : String) (field : InjectParams → β)
    (read : String → Except String β) : Prop where
  own : ∀ {value p q}, setParam debug name value p = .ok q → read value = .ok (field q)
  other : ∀ {name' value p q}, name' ≠ name → setParam debug name' value p = .ok q → field q = field p

variable {name : String} {field : InjectParams → β} {read : String → Except String β}

theorem parseEntries_of_notMem (h : SetBy debug name field read) {entries : List (String × String)}
    (hfree : ∀ e ∈ entries, e.1 ≠ annotationPrefix ++ name) {p q : InjectParams}
    (hparse : parseEntries debug entries p = .ok q)
    : field q = field p := by
  fun_induction parseEntries debug entries p with
  | case1 p =>
    cases hparse
    rfl
  | case2 p key value entries hstrip ih =>
    exact ih (fun e he => hfree e (List.mem_cons_of_mem _ he)) hparse
  | case3 p key value entries name' hstrip p' hset ih =>
    have hne : name' ≠ name := by
      rintro rfl
      exact hfree (key, value) List.mem_cons_self (stripPrefix_eq_some.mp hstrip)
    rw [ih (fun e he => hfree e (List.mem_cons_of_mem _ he)) hparse]
    exact h.other hne hset
  | case4 => cases hparse

theorem parseEntries_of_mem (h : SetBy debug name field read) {entries : List (String × String)}
    (hkeys : (entries.map Prod.fst).Nodup) {value : String}
    (hmem : (annotationPrefix ++ name, value) ∈ entries) {p q : InjectParams}
    (hparse : parseEntries debug entries p = .ok q)
    : read value = .ok (field q) := by
  fun_induction parseEntries debug entries p with
  | case1 => cases hmem
  | case2 p key value' entries hstrip ih =>
    rw [List.map_cons, List.nodup_cons] at hkeys
    rcases List.mem_cons.mp hmem with heq | hmem
    . cases heq
      rw [stripPrefix_eq_some.mpr rfl] at hstrip
      cases hstrip
    . exact ih hkeys.2 hmem hparse
  | case3 p key value' entries name' hstrip p' hset ih =>
    rw [List.map_cons, List.nodup_cons] at hkeys
    rcases List.mem_cons.mp hmem with heq | hmem
    . cases heq
      rw [stripPrefix_eq_some.mpr rfl, Option.some.injEq] at hstrip
      subst hstrip
      rw [parseEntries_of_notMem h ?_ hparse]
      . exact h.own hset
      . intro e he heq
        exact hkeys.1 (List.mem_map.mpr ⟨e, he, heq⟩)
    . exact ih hkeys.2 hmem hparse
  | case4 => cases hparse

theorem keys_nodup (a : Annotations) : (a.entries.map Prod.fst).Nodup := by
  apply List.pairwise_map.mpr
  apply a.sorted.imp
  intro e e' hlt heq
  rw [heq] at hlt
  exact String.lt_irrefl _ hlt

theorem parseAnnotations_eq_ok {a : Annotations} {p : InjectParams}
    : parseAnnotations debug a = .ok p
        ↔
      parseEntries debug a.entries {} = .ok p ∧ ¬(p.egressMode = .gateway ∧ p.egressGateway.isEmpty = true) := by
  unfold parseAnnotations
  cases hentries : parseEntries debug a.entries {} with
  | error e => simp
  | ok q =>
    dsimp only
    split
    . next hgateway =>
      simp only [Bool.and_eq_true, decide_eq_true_eq] at hgateway
      constructor
      . intro h
        cases h
      . rintro ⟨h, hnot⟩
        cases h
        exact absurd hgateway hnot
    . next hgateway =>
      simp only [Bool.and_eq_true, decide_eq_true_eq] at hgateway
      constructor
      . intro h
        cases h
        exact ⟨rfl, hgateway⟩
      . rintro ⟨h, -⟩
        exact h

theorem get_eq_some_iff {a : Annotations} {value : String}
    : a.get name = some value ↔ (annotationPrefix ++ name, value) ∈ a.entries := by
  constructor
  . intro hget
    rcases List.lookup_eq_some_iff.mp hget with ⟨before, after, hentries, -⟩
    rw [hentries]
    simp
  . intro hmem
    obtain ⟨before, after, hentries⟩ := List.append_of_mem hmem
    refine List.lookup_eq_some_iff.mpr ⟨before, after, hentries, ?_⟩
    intro e he
    have hsorted := a.sorted
    rw [hentries, List.pairwise_append] at hsorted
    have hlt := hsorted.2.2 e he _ List.mem_cons_self
    rw [bne_iff_ne]
    intro heq
    rw [heq] at hlt
    exact String.lt_irrefl _ hlt

variable {a : Annotations} {p : InjectParams} (h : SetBy debug name field read)
  (hentries : parseEntries debug a.entries {} = .ok p)

include h hentries

theorem SetBy.of_get_eq_some {value : String} (hget : a.get name = some value) : read value = .ok (field p) :=
  parseEntries_of_mem h (keys_nodup a) (get_eq_some_iff.mp hget) hentries

theorem SetBy.of_get_eq_none (hget : a.get name = none) : field p = field {} := by
  apply parseEntries_of_notMem h
  . intro e he heq
    rw [Annotations.get, List.lookup_eq_none_iff] at hget
    have := hget e he
    simp [heq] at this
  . exact hentries

end annotation

section parsePorts

variable {debug : String → String} {what raw : String}

theorem mem_parsePortsFrom {parts : List String} {out ports : List UInt16}
    (h : parsePortsFrom debug what raw parts out = .ok ports) {port : UInt16}
    : port ∈ ports ↔ port ∈ out ∨ ∃ part ∈ parts, parseU16 (trim part) = some port := by
  fun_induction parsePortsFrom debug what raw parts out with
  | case1 out =>
    cases h
    simp
  | case2 => cases h
  | case3 => cases h
  | case4 out part parts hempty port' hport ih =>
    have hout : (port ∈ if out.contains port' then out else out ++ [port']) ↔ port ∈ out ∨ port = port' := by
      split
      . next hmem =>
        constructor
        . exact .inl
        . rintro (h | rfl)
          . exact h
          . simpa using hmem
      . simp
    rw [ih h, hout]
    simp only [List.mem_cons, exists_eq_or_imp, hport, Option.some.injEq, or_assoc]
    rw [@eq_comm _ port' port]

theorem mem_parsePorts {ports : List UInt16} (h : parsePorts debug what raw = .ok ports) {port : UInt16}
    : port ∈ ports ↔ ∃ part ∈ splitChar ',' raw, parseU16 (trim part) = some port := by
  rw [mem_parsePortsFrom h]
  simp

end parsePorts

section ignoredPorts

theorem mem_destutter' {l : List UInt16} {a b : UInt16}
    : a ∈ l.destutter' (· ≠ ·) b ↔ a = b ∨ a ∈ l := by
  induction l generalizing b with
  | nil => simp
  | cons c l ih =>
    rw [List.destutter'_cons]
    split
    . rw [List.mem_cons, ih, List.mem_cons]
    . next heq =>
      rw [not_not] at heq
      subst heq
      rw [ih, List.mem_cons, ← or_assoc, or_self]

@[simp]
theorem mem_dedup {l : List UInt16} {a : UInt16} : a ∈ dedup l ↔ a ∈ l := by
  unfold dedup
  cases l with
  | nil => simp
  | cons b l => rw [List.destutter_cons', mem_destutter', List.mem_cons]

theorem mem_ignoredPorts {p : InjectParams} {port : UInt16}
    : port ∈ ignoredPorts p ↔ port ∈ p.skipInboundPorts ∨ port = adminIgnorePort := by
  rw [ignoredPorts, mem_dedup, List.mem_insertionSort, List.mem_append, List.mem_singleton]

theorem ignoredPorts_ne_nil (p : InjectParams) : ignoredPorts p ≠ [] := by
  apply List.ne_nil_of_mem
  exact mem_ignoredPorts.mpr (.inr rfl)

end ignoredPorts

section setBy

variable {debug : String → String}

structure Frame (name : String) (p q : InjectParams) : Prop where
  enabled : name ≠ "inject" → q.enabled = p.enabled
  skipInboundPorts : name ≠ "skip-inbound-ports" → q.skipInboundPorts = p.skipInboundPorts
  opaquePorts : name ≠ "opaque-ports" → q.opaquePorts = p.opaquePorts
  proxyUid : name ≠ "proxy-uid" → q.proxyUid = p.proxyUid
  logLevel : name ≠ "proxy-log-level" → q.logLevel = p.logLevel
  egressMode : name ≠ "egress-mode" → q.egressMode = p.egressMode
  egressGateway : name ≠ "egress-gateway" → q.egressGateway = p.egressGateway
  appPort : name ≠ "app-port" → q.appPort = p.appPort

theorem setParam_frame {name value : String} {p q : InjectParams} (h : setParam debug name value p = .ok q)
    : Frame name p q := by
  unfold setParam at h
  split at h
  . rcases Except.map_eq_ok.mp h with ⟨enabled, -, rfl⟩
    constructor <;> intro h <;> first | rfl | exact absurd rfl h
  . rcases Except.map_eq_ok.mp h with ⟨ports, -, rfl⟩
    constructor <;> intro h <;> first | rfl | exact absurd rfl h
  . rcases Except.map_eq_ok.mp h with ⟨ports, -, rfl⟩
    constructor <;> intro h <;> first | rfl | exact absurd rfl h
  . rcases Except.map_eq_ok.mp h with ⟨uid, -, rfl⟩
    constructor <;> intro h <;> first | rfl | exact absurd rfl h
  . rcases Except.map_eq_ok.mp h with ⟨level, -, rfl⟩
    constructor <;> intro h <;> first | rfl | exact absurd rfl h
  . rcases Except.map_eq_ok.mp h with ⟨mode, -, rfl⟩
    constructor <;> intro h <;> first | rfl | exact absurd rfl h
  . cases h
    constructor <;> intro h <;> first | rfl | exact absurd rfl h
  . rcases Except.map_eq_ok.mp h with ⟨port, -, rfl⟩
    constructor <;> intro h <;> first | rfl | exact absurd rfl h
  . cases h
    constructor <;> intro h <;> rfl

section of_map

variable {β : Type} {name : String} {field : InjectParams → β} {read : String → Except String β}
  (update : β → InjectParams → InjectParams)

theorem SetBy.of_map (hset : ∀ value p, setParam debug name value p = (read value).map fun v => update v p)
    (hfield : ∀ v p, field (update v p) = v)
    (hother : ∀ {name' p q}, Frame name' p q → name' ≠ name → field q = field p)
    : SetBy debug name field read where
  own := by
    intro value p q h
    rw [hset] at h
    rcases Except.map_eq_ok.mp h with ⟨v, hv, rfl⟩
    rw [hv, hfield]
  other := by
    intro name' value p q hne h
    exact hother (setParam_frame h) hne

end of_map

theorem setBy_proxyUid : SetBy debug "proxy-uid" InjectParams.proxyUid (parseUid debug "proxy-uid") :=
  SetBy.of_map (fun v p => { p with proxyUid := v }) (fun _ _ => rfl) (fun _ _ => rfl) Frame.proxyUid

theorem setBy_logLevel
    : SetBy debug "proxy-log-level" InjectParams.logLevel (parseLogLevel debug "proxy-log-level") :=
  SetBy.of_map (fun v p => { p with logLevel := v }) (fun _ _ => rfl) (fun _ _ => rfl) Frame.logLevel

theorem setBy_skipInboundPorts
    : SetBy debug "skip-inbound-ports" InjectParams.skipInboundPorts (parsePorts debug "skip-inbound-ports") :=
  SetBy.of_map (fun v p => { p with skipInboundPorts := v }) (fun _ _ => rfl) (fun _ _ => rfl) Frame.skipInboundPorts

theorem setBy_enabled : SetBy debug "inject" InjectParams.enabled (parseEnabled debug "inject") :=
  SetBy.of_map (fun v p => { p with enabled := v }) (fun _ _ => rfl) (fun _ _ => rfl) Frame.enabled

theorem setBy_opaquePorts
    : SetBy debug "opaque-ports" InjectParams.opaquePorts (parsePorts debug "opaque-ports") :=
  SetBy.of_map (fun v p => { p with opaquePorts := v }) (fun _ _ => rfl) (fun _ _ => rfl) Frame.opaquePorts

theorem setBy_egressMode : SetBy debug "egress-mode" InjectParams.egressMode (parseEgressMode debug "egress-mode") :=
  SetBy.of_map (fun v p => { p with egressMode := v }) (fun _ _ => rfl) (fun _ _ => rfl) Frame.egressMode

theorem setBy_egressGateway
    : SetBy debug "egress-gateway" InjectParams.egressGateway fun value => .ok (trim value) :=
  SetBy.of_map (fun v p => { p with egressGateway := v }) (fun _ _ => rfl) (fun _ _ => rfl) Frame.egressGateway

theorem setBy_appPort
    : SetBy debug "app-port" InjectParams.appPort fun value => (parseAppPort debug "app-port" value).map some :=
  SetBy.of_map (fun v p => { p with appPort := v }) (fun _ _ => Except.map_map.symm) (fun _ _ => rfl) Frame.appPort

end setBy

end Inject

end OpenRusty
