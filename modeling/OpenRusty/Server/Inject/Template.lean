import OpenRusty.Server.Inject.Lemmas
import OpenRusty.Server.Inject.Pieces

/-!
This module contains whose annotations an injection obeys. The pod spec is found by the kind of the
document, the annotations of its template at a place that is the same for every kind; for a CronJob that
is not the place of the template that is injected into.
-/

namespace OpenRusty

namespace Inject

open Yaml

section reading

variable (debug : String → String) (a b : Annotations)

def reading (name : String) : Option InjectParams :=
  match a.get name with
  | some value => (setParam debug name value {}).toOption
  | none => some {}

def GatewayMissing : Prop :=
  ∃ p q, reading debug a "egress-mode" = some p ∧ p.egressMode = .gateway
    ∧ reading debug a "egress-gateway" = some q ∧ q.egressGateway.isEmpty = true

def Refused : Prop := (∃ name, reading debug a name = none) ∨ GatewayMissing debug a

def SaysSame : Prop :=
  (∀ name, reading debug a name = reading debug b name) ∨ (Refused debug a ∧ Refused debug b)

end reading

section only

def only (name : String) (p : InjectParams) : InjectParams :=
  match name with
  | "inject" => { enabled := p.enabled }
  | "skip-inbound-ports" => { skipInboundPorts := p.skipInboundPorts }
  | "opaque-ports" => { opaquePorts := p.opaquePorts }
  | "proxy-uid" => { proxyUid := p.proxyUid }
  | "proxy-log-level" => { logLevel := p.logLevel }
  | "egress-mode" => { egressMode := p.egressMode }
  | "egress-gateway" => { egressGateway := p.egressGateway }
  | "app-port" => { appPort := p.appPort }
  | _ => {}

theorem eq_of_only {p q : InjectParams} (h : ∀ name, only name p = only name q) : p = q := by
  have henabled := h "inject"
  have hskip := h "skip-inbound-ports"
  have hopaque := h "opaque-ports"
  have huid := h "proxy-uid"
  have hlevel := h "proxy-log-level"
  have hmode := h "egress-mode"
  have hgateway := h "egress-gateway"
  have hport := h "app-port"
  cases p
  cases q
  simp_all [only]

end only

section parse

variable {debug : String → String} {a b : Annotations} {p : InjectParams}

theorem setParam_error {name value e : String} {q : InjectParams} (h : setParam debug name value p = .error e)
    : setParam debug name value q = .error e := by
  unfold setParam at h ⊢
  split at h
  . exact Except.map_eq_error.mpr (Except.map_eq_error.mp h)
  . exact Except.map_eq_error.mpr (Except.map_eq_error.mp h)
  . exact Except.map_eq_error.mpr (Except.map_eq_error.mp h)
  . exact Except.map_eq_error.mpr (Except.map_eq_error.mp h)
  . exact Except.map_eq_error.mpr (Except.map_eq_error.mp h)
  . exact Except.map_eq_error.mpr (Except.map_eq_error.mp h)
  . cases h
  . exact Except.map_eq_error.mpr (Except.map_eq_error.mp h)
  . cases h

theorem parseEntries_isOk {entries : List (String × String)}
    (h : ∀ name value, (annotationPrefix ++ name, value) ∈ entries → ∃ q, setParam debug name value {} = .ok q)
    : ∃ q, parseEntries debug entries p = .ok q := by
  fun_induction parseEntries debug entries p with
  | case1 p => exact ⟨p, rfl⟩
  | case2 p key value entries hstrip ih =>
    exact ih fun name value hmem => h name value (List.mem_cons_of_mem _ hmem)
  | case3 p key value entries name hstrip p' hset ih =>
    exact ih fun name value hmem => h name value (List.mem_cons_of_mem _ hmem)
  | case4 p key value entries name hstrip e hset =>
    rw [stripPrefix_eq_some] at hstrip
    subst hstrip
    obtain ⟨q, hq⟩ := h name value List.mem_cons_self
    rw [setParam_error hset] at hq
    cases hq

section reading_of_setBy

variable {β : Type} {name : String} {field : InjectParams → β} {read : String → Except String β}
  (update : β → InjectParams → InjectParams)

theorem reading_of_setBy (h : SetBy debug name field read)
    (hset : ∀ value p, setParam debug name value p = (read value).map fun v => update v p)
    (hdefault : update (field {}) {} = {}) (hentries : parseEntries debug a.entries {} = .ok p)
    : reading debug a name = some (update (field p) {}) := by
  unfold reading
  cases hget : a.get name with
  | some value =>
    dsimp only
    rw [hset, h.of_get_eq_some hentries hget]
    rfl
  | none => rw [h.of_get_eq_none hentries hget, hdefault]

end reading_of_setBy

theorem reading_eq (hentries : parseEntries debug a.entries {} = .ok p) (name : String)
    : reading debug a name = some (only name p) := by
  unfold only
  split
  . exact reading_of_setBy (fun v p => { p with enabled := v }) setBy_enabled (fun _ _ => rfl) rfl hentries
  . exact reading_of_setBy (fun v p => { p with skipInboundPorts := v }) setBy_skipInboundPorts (fun _ _ => rfl) rfl
      hentries
  . exact reading_of_setBy (fun v p => { p with opaquePorts := v }) setBy_opaquePorts (fun _ _ => rfl) rfl hentries
  . exact reading_of_setBy (fun v p => { p with proxyUid := v }) setBy_proxyUid (fun _ _ => rfl) rfl hentries
  . exact reading_of_setBy (fun v p => { p with logLevel := v }) setBy_logLevel (fun _ _ => rfl) rfl hentries
  . exact reading_of_setBy (fun v p => { p with egressMode := v }) setBy_egressMode (fun _ _ => rfl) rfl hentries
  . exact reading_of_setBy (fun v p => { p with egressGateway := v }) setBy_egressGateway (fun _ _ => rfl) rfl hentries
  . exact reading_of_setBy (fun v p => { p with appPort := v }) setBy_appPort (fun _ _ => Except.map_map.symm) rfl
      hentries
  . -- A name that is not known sets nothing.
    have hunknown : ∀ value, setParam debug name value {} = .ok {} := by
      intro value
      unfold setParam
      split <;> first | exact absurd rfl (by assumption) | rfl
    unfold reading
    cases a.get name with
    | some value =>
      dsimp only
      rw [hunknown]
      rfl
    | none => rfl

theorem parseEntries_of_readings (h : ∀ name, reading debug a name ≠ none)
    : ∃ p, parseEntries debug a.entries {} = .ok p := by
  apply parseEntries_isOk
  intro name value hmem
  have hread := h name
  unfold reading at hread
  rw [get_eq_some_iff.mpr hmem] at hread
  cases hset : setParam debug name value {} with
  | ok q => exact ⟨q, rfl⟩
  | error e =>
    simp only [hset] at hread
    exact absurd rfl hread

theorem gatewayMissing_iff (hentries : parseEntries debug a.entries {} = .ok p)
    : GatewayMissing debug a ↔ p.egressMode = .gateway ∧ p.egressGateway.isEmpty = true := by
  unfold GatewayMissing
  simp only [reading_eq hentries, Option.some.injEq]
  constructor
  . rintro ⟨_, _, rfl, hmode, rfl, hempty⟩
    exact ⟨hmode, hempty⟩
  . rintro ⟨hmode, hempty⟩
    exact ⟨_, _, rfl, hmode, rfl, hempty⟩

theorem refused_iff : Refused debug a ↔ ∀ p, parseAnnotations debug a ≠ .ok p := by
  constructor
  . rintro hrefused p hparse
    obtain ⟨hentries, hgateway⟩ := parseAnnotations_eq_ok.mp hparse
    rcases hrefused with ⟨name, hname⟩ | hmissing
    . rw [reading_eq hentries] at hname
      cases hname
    . exact hgateway ((gatewayMissing_iff hentries).mp hmissing)
  . intro h
    by_contra hnot
    unfold Refused at hnot
    push Not at hnot
    obtain ⟨p, hentries⟩ := parseEntries_of_readings hnot.1
    rw [gatewayMissing_iff hentries] at hnot
    exact h p (parseAnnotations_eq_ok.mpr ⟨hentries, hnot.2⟩)

theorem parseAnnotations_of_readings (h : ∀ name, reading debug a name = reading debug b name)
    (hparse : parseAnnotations debug a = .ok p)
    : parseAnnotations debug b = .ok p := by
  obtain ⟨hentries, hgateway⟩ := parseAnnotations_eq_ok.mp hparse
  have hread : ∀ name, reading debug b name ≠ none := by
    intro name
    rw [← h, reading_eq hentries]
    simp
  obtain ⟨q, hq⟩ := parseEntries_of_readings hread
  have heq : q = p := by
    apply eq_of_only
    intro name
    have hname := h name
    rw [reading_eq hentries, reading_eq hq, Option.some.injEq] at hname
    exact hname.symm
  subst heq
  exact parseAnnotations_eq_ok.mpr ⟨hq, hgateway⟩

theorem saysSame_iff
    : SaysSame debug a b ↔ ∀ p, parseAnnotations debug a = .ok p ↔ parseAnnotations debug b = .ok p := by
  constructor
  . rintro (hsame | ⟨ha, hb⟩) p
    . constructor
      . exact parseAnnotations_of_readings hsame
      . exact parseAnnotations_of_readings fun name => (hsame name).symm
    . rw [refused_iff] at ha hb
      exact iff_of_false (ha p) (hb p)
  . intro h
    by_cases hok : ∃ p, parseAnnotations debug a = .ok p
    . obtain ⟨p, hp⟩ := hok
      have ha := (parseAnnotations_eq_ok.mp hp).1
      have hb := (parseAnnotations_eq_ok.mp ((h p).mp hp)).1
      left
      intro name
      rw [reading_eq ha, reading_eq hb]
    . right
      rw [refused_iff, refused_iff]
      constructor
      . intro p hp
        exact hok ⟨p, hp⟩
      . intro p hp
        exact hok ⟨p, (h p).mpr hp⟩

end parse

section merge

variable {name : String}

theorem lookup_cons {e : String × String} {entries : List (String × String)} {key : String}
    : (e :: entries).lookup key = if key = e.1 then some e.2 else entries.lookup key := by
  rw [List.lookup_cons]
  split
  . next heq => rw [if_pos (beq_iff_eq.mp heq)]
  . next hne => rw [if_neg (ne_of_beq_false hne)]

theorem lookup_insertEntry {key value : String} {entries : List (String × String)} {other : String}
    : (insertEntry key value entries).lookup other = if other = key then some value else entries.lookup other := by
  fun_induction insertEntry key value entries with
  | case1 => rw [lookup_cons]
  | case2 e entries hlt => rw [lookup_cons]
  | case3 e entries hlt heq =>
    rw [lookup_cons, lookup_cons, ← heq]
    split <;> rfl
  | case4 e entries hlt hne ih =>
    rw [lookup_cons, lookup_cons, ih]
    split
    . next heq =>
      have hother : other ≠ key := by
        rintro rfl
        exact hne heq
      rw [if_neg hother]
    . rfl

theorem get_push (c : Collected) (e : String × Value)
    : (c.push e).merged.get name
        =
      ((if annotationPrefix ++ name = e.1 then scalarString e.2 else none).or (c.merged.get name)) := by
  unfold Collected.push
  cases scalarString e.2 with
  | none => simp
  | some s =>
    simp only [Annotations.get, Annotations.insert, lookup_insertEntry]
    split <;> rfl

theorem get_foldl_push (c : Collected) (entries : List (String × Value))
    : (entries.foldl Collected.push c).merged.get name
        =
      ((entries.foldl Collected.push {}).merged.get name).or (c.merged.get name) := by
  induction entries using List.reverseRecOn with
  | nil => rfl
  | append_singleton entries e ih =>
    rw [List.foldl_append, List.foldl_append]
    simp only [List.foldl_cons, List.foldl_nil]
    rw [get_push, get_push, ih, Option.or_assoc]

def merge (workload template : Option Value) : Annotations := (collect (workload.toList ++ template.toList)).merged

theorem get_merge (workload template : Option Value)
    : (merge workload template).get name
        =
      ((merge none template).get name).or ((merge workload none).get name) := by
  unfold merge collect
  rw [List.flatMap_append, List.foldl_append, get_foldl_push]
  simp

end merge

section template

def templateMetadata (doc : Value) (path : List String) : Option Value := doc.getPath (path.dropLast ++ ["metadata"])

/-- The parameters are those of the workload's annotations, overridden by those of the template at the path. -/
def Obeys (debug : String → String) (doc : Value) (path : List String) : Prop :=
  ∀ p, (collectAnnotations debug doc).map Prod.fst = .ok p
    ↔ parseAnnotations debug (merge (metadataOf doc) (templateMetadata doc path)) = .ok p

variable {debug : String → String} {doc : Value} {path : List String}

theorem collectAnnotations_map_fst
    : (collectAnnotations debug doc).map Prod.fst
        =
      parseAnnotations debug (merge (metadataOf doc) (podTemplateMetadata doc)) := by
  unfold collectAnnotations merge
  dsimp only
  rw [Except.map_map]
  cases parseAnnotations debug (collect ((metadataOf doc).toList ++ (podTemplateMetadata doc).toList)).merged with
  | error e => rfl
  | ok p => rfl

theorem obeys_iff
    : Obeys debug doc path
        ↔
      SaysSame debug (merge (metadataOf doc) (podTemplateMetadata doc))
        (merge (metadataOf doc) (templateMetadata doc path)) := by
  unfold Obeys
  rw [saysSame_iff, collectAnnotations_map_fst]

theorem obeys_of_podPath (hpath : path = podPath) (h : podTemplateMetadata doc = none) : Obeys debug doc path := by
  subst hpath
  have htemplate : templateMetadata doc podPath = metadataOf doc := by
    unfold templateMetadata metadataOf
    simp [podPath, Value.getPath]
  rw [obeys_iff, h, htemplate]
  left
  intro name
  have hget : (merge (metadataOf doc) none).get name = (merge (metadataOf doc) (metadataOf doc)).get name := by
    rw [get_merge (metadataOf doc) (metadataOf doc)]
    unfold merge
    simp
  unfold reading
  rw [hget]

theorem obeys_of_podTemplatePath (hpath : path = podTemplatePath) : Obeys debug doc path := by
  subst hpath
  intro p
  rw [collectAnnotations_map_fst]
  rfl

theorem run_eq_of_disabled {tools : Tools} (h : Obeys tools.debug doc path)
    (hdisabled : (merge none (templateMetadata doc path)).get "inject" = some "disabled") {raw image out : String}
    (hdoc : readDocument tools raw = .ok doc) (hrun : runWithImage tools raw image = .ok out)
    : out = raw := by
  obtain ⟨doc', p, warnings, hdoc', hp, -, hsame⟩ := runWithImage_eq_ok hrun
  rw [hdoc] at hdoc'
  cases hdoc'
  have hparse : parseAnnotations tools.debug (merge (metadataOf doc) (templateMetadata doc path)) = .ok p := by
    rw [← h p, hp]
    rfl
  have hget : (merge (metadataOf doc) (templateMetadata doc path)).get "inject" = some "disabled" := by
    rw [get_merge, hdisabled]
    rfl
  have hread := setBy_enabled.of_get_eq_some (parseAnnotations_eq_ok.mp hparse).1 hget
  have henabled : Except.ok false = Except.ok p.enabled := hread
  exact hsame (Except.ok.inj henabled).symm

theorem path_of_kind {kind : String} (h : pathOfKind kind = some path)
    : path = podTemplatePath ∨ (kind = "Pod" ∧ path = podPath) ∨ (kind = "CronJob" ∧ path = cronjobPodPath) := by
  unfold pathOfKind at h
  split at h
  all_goals cases h
  all_goals simp

end template

theorem inject_obeys_template_iff (tools : Tools) {doc spec : Value} {path : List String}
    (hspec : podSpec tools.debug doc = .ok (path, spec))
    : (Obeys tools.debug doc path
        ↔
      SaysSame tools.debug (merge (metadataOf doc) (podTemplateMetadata doc))
        (merge (metadataOf doc) (templateMetadata doc path)))
      ∧ ((doc.get "kind").bind Value.asStr = some "CronJob" ∨ Obeys tools.debug doc path
        ∨ ((doc.get "kind").bind Value.asStr = some "Pod" ∧ podTemplateMetadata doc ≠ none))
      ∧ (Obeys tools.debug doc path → (merge none (templateMetadata doc path)).get "inject" = some "disabled" →
        ∀ raw image out, readDocument tools raw = .ok doc → runWithImage tools raw image = .ok out → out = raw) := by
  refine ⟨obeys_iff, ?_, ?_⟩
  . obtain ⟨⟨kind, hkind, hof⟩, -⟩ := podSpec_eq_ok hspec
    rcases path_of_kind hof with hpath | ⟨rfl, hpath⟩ | ⟨rfl, -⟩
    . exact .inr (.inl (obeys_of_podTemplatePath hpath))
    . cases hmetadata : podTemplateMetadata doc with
      | none => exact .inr (.inl (obeys_of_podPath hpath hmetadata))
      | some metadata => exact .inr (.inr ⟨hkind, by simp⟩)
    . exact .inl hkind
  . intro hobeys hdisabled raw image out hdoc hrun
    exact run_eq_of_disabled hobeys hdisabled hdoc hrun

section sample

def disabledPod : Value :=
  object [
    ("kind", .string "Pod"),
    ("metadata", object [
      ("name", .string "job"),
      ("annotations", object [(annotationPrefix ++ "inject", .string "disabled")])
    ]),
    ("spec", object [("containers", .sequence [object [("name", .string "job")]])])
  ]

def disabledPodLines : List String :=
  [
    "kind: Pod",
    "metadata:",
    "  name: job",
    "  annotations:",
    "    config.openrusty.io/inject: disabled",
    "spec:",
    "  containers:",
    "  - name: job"
  ]

def disabledPodTools : Tools :=
  { webTools with
    fromYaml := fun raw =>
      if raw = unlines disabledPodLines then .ok disabledPod else .error "EOF while parsing a value" }

theorem inject_obeys_template_iff_disabledPod
    : Obeys disabledPodTools.debug disabledPod podPath
      ∧ ∀ image out, runWithImage disabledPodTools (unlines disabledPodLines) image = .ok out
        → out = unlines disabledPodLines := by
  have hspec : ∃ spec, podSpec disabledPodTools.debug disabledPod = .ok (podPath, spec) := ⟨_, rfl⟩
  obtain ⟨spec, hspec⟩ := hspec
  obtain ⟨-, hkind, hrun⟩ := inject_obeys_template_iff disabledPodTools hspec
  have hpod : (disabledPod.get "kind").bind Value.asStr = some "Pod" := rfl
  have hobeys : Obeys disabledPodTools.debug disabledPod podPath := by
    rcases hkind with h | h | ⟨-, h⟩
    . rw [hpod] at h
      exact absurd h (by decide)
    . exact h
    . exact absurd rfl h
  have hdoc : readDocument disabledPodTools (unlines disabledPodLines) = .ok disabledPod := by
    have hblank : isBlank (unlines disabledPodLines) = false := by decide +kernel
    simp [readDocument, hblank, disabledPodTools, Except.mapError]
  exact ⟨hobeys, fun image out => hrun hobeys (by decide +kernel) _ image out hdoc⟩

def nightly : Value :=
  object [
    ("kind", .string "CronJob"),
    ("metadata", object [("name", .string "nightly")]),
    ("spec", object [("jobTemplate", object [("spec", object [("template", object [
      ("metadata", object [("annotations", object [(annotationPrefix ++ "inject", .string "disabled")])]),
      ("spec", object [("containers", .sequence [object [("name", .string "job")]])])
    ])])])])
  ]

theorem cronJob_disobeys
    : (∃ spec, podSpec webTools.debug nightly = .ok (cronjobPodPath, spec))
      ∧ parseAnnotations webTools.debug (merge (metadataOf nightly) (templateMetadata nightly cronjobPodPath))
        = .ok { enabled := false }
      ∧ collectAnnotations webTools.debug nightly = .ok ({}, [])
      ∧ ¬Obeys webTools.debug nightly cronjobPodPath := by
  have htemplate : parseAnnotations webTools.debug
      (merge (metadataOf nightly) (templateMetadata nightly cronjobPodPath)) = .ok { enabled := false } := rfl
  have hcollect : collectAnnotations webTools.debug nightly = .ok ({}, []) := rfl
  refine ⟨⟨_, rfl⟩, htemplate, hcollect, ?_⟩
  intro h
  have henabled := (h { enabled := false }).mpr htemplate
  rw [hcollect] at henabled
  cases henabled

end sample

end Inject

end OpenRusty
