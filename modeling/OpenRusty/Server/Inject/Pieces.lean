import OpenRusty.Lib.Fallible
import OpenRusty.Server.Inject.Document

/-!
This module contains what an injection changes: three lists of the pod spec have one element more, and
nothing else of the document is touched. So the document that comes out says the same about the
injection as the one that went in, except that it carries the pieces, and is refused.
-/

namespace OpenRusty

namespace Inject

open Yaml

section append

variable {spec spec' item : Value} {key : String}

theorem append_eq_ok (h : append spec key item = .ok spec') : Extends key item spec spec' := by
  fun_induction append spec key item generalizing spec' with
  | case1 tag v ih =>
    obtain ⟨v', hv, rfl⟩ := Except.map_eq_ok.mp h
    exact .tagged (ih hv)
  | case2 entries list hlookup list' hpush =>
    cases h
    obtain ⟨before, after, hfree, rfl⟩ := lookup_eq_some.mp hlookup
    rw [replace_append hfree]
    exact .present hfree (push_eq_some hpush)
  | case3 => cases h
  | case4 entries hlookup =>
    cases h
    exact .absent (lookup_eq_none.mp hlookup)
  | case5 => cases h

theorem containerNames_congr (h : spec'.get key = spec.get key)
    : containerNames spec' key = containerNames spec key := by
  unfold containerNames
  rw [h]

theorem containerNames_extends (h : Extends key item spec spec') {name : String}
    (hname : (item.get "name").bind Value.asStr = some name)
    : containerNames spec' key = containerNames spec key ++ [name] := by
  obtain ⟨items, hitems, hold⟩ := h.get_self
  unfold containerNames
  rw [hitems]
  cases hlist : (spec.get key).bind Value.asSequence with
  | none =>
    rw [hlist] at hold
    subst hold
    simp [hname]
  | some list =>
    rw [hlist] at hold
    subst hold
    simp [hname]

end append

def Injected (p : InjectParams) (image cmName : String) (spec spec' : Value) : Prop :=
  ∃ spec₁ spec₂, Extends "initContainers" (initContainer p image) spec spec₁
    ∧ Extends "containers" (sidecar p image) spec₁ spec₂
    ∧ Extends "volumes" (configVolume cmName) spec₂ spec'

section injected

variable {p : InjectParams} {image cmName : String} {spec spec' : Value}

theorem injectPodSpec_eq_ok (h : injectPodSpec spec p image cmName = .ok spec')
    : initName ∉ containerNames spec "initContainers" ∧ Injected p image cmName spec spec' := by
  unfold injectPodSpec at h
  split at h
  . cases h
  . next hnot =>
    obtain ⟨spec₁, hinit, h⟩ := Except.bind_eq_ok.mp h
    obtain ⟨spec₂, hsidecar, hvolume⟩ := Except.bind_eq_ok.mp h
    rw [Bool.or_eq_true, not_or] at hnot
    refine ⟨by simpa using hnot.1, spec₁, spec₂, ?_, ?_, ?_⟩
    . exact append_eq_ok hinit
    . exact append_eq_ok hsidecar
    . exact append_eq_ok hvolume

theorem Injected.get_other (h : Injected p image cmName spec spec') {key : String}
    (hinit : key ≠ "initContainers") (hcontainers : key ≠ "containers") (hvolumes : key ≠ "volumes")
    : spec'.get key = spec.get key := by
  obtain ⟨spec₁, spec₂, h₁, h₂, h₃⟩ := h
  rw [h₃.get_other hvolumes, h₂.get_other hcontainers, h₁.get_other hinit]

theorem Injected.initName_mem (h : Injected p image cmName spec spec')
    : initName ∈ containerNames spec' "initContainers" := by
  obtain ⟨spec₁, spec₂, h₁, h₂, h₃⟩ := h
  have hget : spec'.get "initContainers" = spec₁.get "initContainers" := by
    rw [h₃.get_other (by decide), h₂.get_other (by decide)]
  rw [containerNames_congr hget, containerNames_extends h₁ (by rfl)]
  simp

end injected

section document

variable {tools : Tools} {doc doc' configMap spec : Value} {p : InjectParams} {image : String}
variable {path : List String} {R : Value → Value → Prop}

def PodPath (doc : Value) (path : List String) : Prop :=
  ∃ kind, (doc.get "kind").bind Value.asStr = some kind ∧ pathOfKind kind = some path

theorem podSpec_eq_ok {debug : String → String} (h : podSpec debug doc = .ok (path, spec))
    : PodPath doc path ∧ doc.getPath path = some spec := by
  unfold podSpec at h
  split at h
  . cases h
  . next kind hkind =>
    split at h
    . cases h
    . next path' hpath =>
      split at h
      . cases h
      . next spec' hspec =>
        split at h
        . cases h
          exact ⟨⟨kind, hkind, hpath⟩, hspec⟩
        . cases h

theorem pathOfKind_cases {kind : String} (h : pathOfKind kind = some path)
    : path = podPath ∨ path = podTemplatePath ∨ path = cronjobPodPath := by
  unfold pathOfKind at h
  split at h
  all_goals cases h
  all_goals simp

theorem injectDocument_eq_ok (h : injectDocument tools doc p image = .ok (doc', configMap))
    : ∃ name path spec spec', workloadName doc = .ok name ∧ podSpec tools.debug doc = .ok (path, spec)
      ∧ injectPodSpec spec p image (configMapName name) = .ok spec' ∧ doc' = doc.setPath path spec' := by
  unfold injectDocument at h
  obtain ⟨name, hname, h⟩ := Except.bind_eq_ok.mp h
  obtain ⟨⟨path, spec⟩, hspec, h⟩ := Except.bind_eq_ok.mp h
  obtain ⟨spec', hinject, h⟩ := Except.bind_eq_ok.mp h
  obtain ⟨cm, -, h⟩ := Except.bind_eq_ok.mp h
  cases h
  exact ⟨name, path, spec, spec', hname, hspec, hinject, rfl⟩

theorem runWithImage_eq_ok {raw out : String} (h : runWithImage tools raw image = .ok out)
    : ∃ doc p warnings, readDocument tools raw = .ok doc
      ∧ collectAnnotations tools.debug doc = .ok (p, warnings)
      ∧ (p.enabled = true → ∃ doc' configMap, injectDocument tools doc p image = .ok (doc', configMap)
        ∧ printDocuments tools doc' configMap = .ok out)
      ∧ (p.enabled = false → out = raw) := by
  unfold runWithImage at h
  obtain ⟨doc, hdoc, h⟩ := Except.bind_eq_ok.mp h
  obtain ⟨⟨p, warnings⟩, hp, h⟩ := Except.bind_eq_ok.mp h
  refine ⟨doc, p, warnings, hdoc, hp, ?_, ?_⟩
  . intro henabled
    dsimp only at h
    rw [if_pos henabled] at h
    obtain ⟨⟨doc', configMap⟩, hinject, h⟩ := Except.bind_eq_ok.mp h
    exact ⟨doc', configMap, hinject, h⟩
  . intro henabled
    dsimp only at h
    rw [henabled] at h
    cases h
    rfl

theorem runWithImage_of_enabled {raw : String} {warnings : List String} (hdoc : readDocument tools raw = .ok doc)
    (hp : collectAnnotations tools.debug doc = .ok (p, warnings)) (henabled : p.enabled = true)
    (hinject : injectDocument tools doc p image = .ok (doc', configMap))
    : runWithImage tools raw image = printDocuments tools doc' configMap := by
  have hrun : runWithImage tools raw image = if p.enabled then
      (injectDocument tools doc p image).bind fun r => printDocuments tools r.1 r.2
    else
      .ok raw := by
    unfold runWithImage
    rw [hdoc]
    simp only [bind, Except.bind, hp]
    rfl
  rw [hrun, if_pos henabled, hinject]
  rfl

theorem get_of_frame (h : Yaml.Frame R path doc doc')
    (hpath : path = podPath ∨ path = podTemplatePath ∨ path = cronjobPodPath) {key : String} (hkey : key ≠ "spec")
    : doc'.get key = doc.get key := by
  rcases hpath with rfl | rfl | rfl
  . exact h.get_other hkey
  . exact h.get_other hkey
  . exact h.get_other hkey

variable {cmName : String}

theorem podTemplateMetadata_of_frame (h : Yaml.Frame (Injected p image cmName) path doc doc')
    (hpath : path = podPath ∨ path = podTemplatePath ∨ path = cronjobPodPath)
    : podTemplateMetadata doc' = podTemplateMetadata doc := by
  unfold podTemplateMetadata
  obtain ⟨spec, spec', hspec, hspec', hrest⟩ : ∃ spec spec', doc.get "spec" = some spec ∧ doc'.get "spec" = some spec'
      ∧ Yaml.Frame (Injected p image cmName) path.tail spec spec' := by
    rcases hpath with rfl | rfl | rfl
    . exact h.get_self
    . exact h.get_self
    . exact h.get_self
  simp only [Value.getPath, hspec, hspec', Option.bind_some]
  rcases hpath with rfl | rfl | rfl
  . cases hrest with
    | here hinjected => rw [hinjected.get_other (by decide) (by decide) (by decide)]
  . obtain ⟨template, template', htemplate, htemplate', hrest⟩ := hrest.get_self
    have hmetadata : template'.get "metadata" = template.get "metadata" := hrest.get_other (by decide)
    simp only [htemplate, htemplate', Option.bind_some, hmetadata]
  . rw [hrest.get_other (by decide)]

theorem collectAnnotations_of_frame (h : Yaml.Frame (Injected p image cmName) path doc doc')
    (hpath : path = podPath ∨ path = podTemplatePath ∨ path = cronjobPodPath) (debug : String → String)
    : collectAnnotations debug doc' = collectAnnotations debug doc := by
  have hmetadata : metadataOf doc' = metadataOf doc := get_of_frame h hpath (by decide)
  unfold collectAnnotations
  rw [hmetadata, podTemplateMetadata_of_frame h hpath]

theorem podPath_unique {path' : List String} (h : Yaml.Frame R path doc doc') (hpath : PodPath doc path)
    (hpath' : PodPath doc' path')
    : path' = path := by
  obtain ⟨kind, hkind, hof⟩ := hpath
  obtain ⟨kind', hkind', hof'⟩ := hpath'
  rw [get_of_frame h (pathOfKind_cases hof) (by decide), hkind] at hkind'
  cases hkind'
  rw [hof] at hof'
  cases hof'
  rfl

theorem refused_of_frame (h : Yaml.Frame (Injected p image cmName) path doc doc') (hpath : PodPath doc path)
    {warnings : List String} (hp : collectAnnotations tools.debug doc = .ok (p, warnings)) (henabled : p.enabled = true)
    {raw : String} (hraw : tools.fromYaml raw = .ok doc') (image' : String)
    : ∃ e, runWithImage tools raw image' = .error e := by
  cases hrun : runWithImage tools raw image' with
  | error e => exact ⟨e, rfl⟩
  | ok out =>
    exfalso
    obtain ⟨doc'', p', warnings', hdoc, hp', hinject, -⟩ := runWithImage_eq_ok hrun
    obtain ⟨kind, hkind, hof⟩ := id hpath
    have hsame : doc'' = doc' := by
      unfold readDocument at hdoc
      split at hdoc
      . cases hdoc
      . rw [hraw] at hdoc
        cases hdoc
        rfl
    subst hsame
    rw [collectAnnotations_of_frame h (pathOfKind_cases hof), hp] at hp'
    cases hp'
    obtain ⟨doc₃, configMap, hdoc₃, -⟩ := hinject henabled
    obtain ⟨name, path', spec, spec', -, hspec, hpod, -⟩ := injectDocument_eq_ok hdoc₃
    obtain ⟨hpath', hget⟩ := podSpec_eq_ok hspec
    rw [podPath_unique h hpath hpath'] at hget
    obtain ⟨before, after, -, hafter, hinjected⟩ := h.getPath
    rw [hafter] at hget
    cases hget
    exact (injectPodSpec_eq_ok hpod).1 hinjected.initName_mem

end document

section cli

variable {tools : Tools}

theorem runCli_silent {usage : String} {argv : List String} {input : Option String}
    (h : (runCli tools usage argv input).1 ≠ 0)
    : (runCli tools usage argv input).2 = "" := by
  unfold runCli at h ⊢
  split
  . next hhelp => simp [hhelp] at h
  . next hhelp =>
    rw [if_neg hhelp] at h
    cases hargs : parseCliArgs argv none with
    | error e => rfl
    | ok flag =>
      rw [hargs] at h
      cases input with
      | none => rfl
      | some raw =>
        dsimp only at h ⊢
        cases hrun : runWithImage tools raw (flag.getD image) with
        | ok out => simp [hrun] at h
        | error e => rfl

end cli

theorem inject_adds_pieces (tools : Tools)
    : (∀ raw image doc p warnings out, readDocument tools raw = .ok doc →
        collectAnnotations tools.debug doc = .ok (p, warnings) → p.enabled = true →
        runWithImage tools raw image = .ok out →
        ∃ name path doc' configMap, workloadName doc = .ok name ∧ PodPath doc path
          ∧ Yaml.Frame (Injected p image (configMapName name)) path doc doc'
          ∧ injectDocument tools doc p image = .ok (doc', configMap)
          ∧ printDocuments tools doc' configMap = .ok out
          ∧ ∀ raw' image', tools.fromYaml raw' = .ok doc' → ∃ e, runWithImage tools raw' image' = .error e)
      ∧ ∀ usage argv input, (runCli tools usage argv input).1 ≠ 0 → (runCli tools usage argv input).2 = "" := by
  refine ⟨?_, fun usage argv input h => runCli_silent h⟩
  intro raw image doc p warnings out hdoc hp henabled hrun
  obtain ⟨doc₀, p₀, warnings₀, hdoc₀, hp₀, hinject, -⟩ := runWithImage_eq_ok hrun
  rw [hdoc] at hdoc₀
  cases hdoc₀
  rw [hp] at hp₀
  cases hp₀
  obtain ⟨doc', configMap, hdoc', hprint⟩ := hinject henabled
  obtain ⟨name, path, spec, spec', hname, hspec, hpod, rfl⟩ := injectDocument_eq_ok hdoc'
  obtain ⟨hpath, hget⟩ := podSpec_eq_ok hspec
  have hframe := frame_setPath hget (injectPodSpec_eq_ok hpod).2
  refine ⟨name, path, _, configMap, hname, hpath, hframe, hdoc', hprint, ?_⟩
  intro raw' image' hraw
  exact refused_of_frame hframe hpath hp henabled hraw image'

section sample

def webDeployment (spec : List (String × Value)) : Value :=
  object [
    ("kind", .string "Deployment"),
    ("metadata", object [("name", .string "web")]),
    ("spec", object [("template", object [("spec", object spec)])])
  ]

def web : Value := webDeployment [("containers", .sequence [object [("name", .string "web")]])]

def webInjected : Value :=
  webDeployment [
    ("containers", .sequence [object [("name", .string "web")], sidecar {} image]),
    ("initContainers", .sequence [initContainer {} image]),
    ("volumes", .sequence [configVolume "web-openrusty-config"])
  ]

def webLines : List String :=
  [
    "kind: Deployment",
    "metadata:",
    "  name: web",
    "spec:",
    "  template:",
    "    spec:",
    "      containers:",
    "      - name: web"
  ]

def webInjectedLines : List String :=
  webLines ++ [
    "      - name: openrusty-proxy",
    "        image: ghcr.io/openrusty/openrusty:0.0.0-placeholder",
    "        args:",
    "        - /etc/openrusty/openrusty.toml",
    "        ports:",
    "        - name: proxy",
    "          containerPort: 4143",
    "        - name: outbound",
    "          containerPort: 4140",
    "        - name: admin",
    "          containerPort: 4191",
    "        securityContext:",
    "          runAsUser: 511",
    "        volumeMounts:",
    "        - name: openrusty-config",
    "          mountPath: /etc/openrusty",
    "          readOnly: true",
    "      initContainers:",
    "      - name: openrusty-init",
    "        image: ghcr.io/openrusty/openrusty:0.0.0-placeholder",
    "        command:",
    "        - openrusty",
    "        - iptables-init",
    "        - --proxy-uid",
    "        - '511'",
    "        - --inbound-port",
    "        - '4143'",
    "        - --outbound-port",
    "        - '4140'",
    "        - --ignore-inbound-ports",
    "        - '4191'",
    "        securityContext:",
    "          runAsUser: 0",
    "          capabilities:",
    "            add:",
    "            - NET_ADMIN",
    "            - NET_RAW",
    "      volumes:",
    "      - name: openrusty-config",
    "        configMap:",
    "          name: web-openrusty-config"
  ]

def webConfigMapLines : List String :=
  [
    "apiVersion: v1",
    "kind: ConfigMap",
    "metadata:",
    "  name: web-openrusty-config",
    "  labels:",
    "    app.kubernetes.io/managed-by: openrusty-inject",
    "data:",
    "  openrusty.toml: |"
  ] ++ (splitChar '\n' (configToml {})).dropLast.map fun line => if line = "" then "" else "    " ++ line

def webTools : Tools where
  fromYaml raw :=
    if raw = unlines webLines then
      .ok web
    else if raw = unlines webInjectedLines then
      .ok webInjected
    else
      .error "EOF while parsing a value"
  toYaml doc :=
    if (doc.get "kind").bind Value.asStr = some "ConfigMap" then
      .ok (unlines webConfigMapLines)
    else
      .ok (unlines webInjectedLines)
  debug := fun s => "\"" ++ s ++ "\""
  renderToml := fun p => .ok (configToml p)

theorem webTools_toYaml (doc : Value) : ∃ text, webTools.toYaml doc = .ok text := by
  unfold webTools
  dsimp only
  split
  . exact ⟨_, rfl⟩
  . exact ⟨_, rfl⟩

theorem inject_adds_pieces_web
    : (∃ out, runWithImage webTools (unlines webLines) image = .ok out)
      ∧ Yaml.Frame (Injected {} image "web-openrusty-config") podTemplatePath web webInjected
      ∧ (∃ e, runWithImage webTools (unlines webInjectedLines) image = .error e)
      ∧ (runCli webTools "" ["--image"] none).2 = "" := by
  have hdoc : readDocument webTools (unlines webLines) = .ok web := by
    have hblank : isBlank (unlines webLines) = false := by decide +kernel
    simp [readDocument, hblank, webTools, Except.mapError]
  have hp : collectAnnotations webTools.debug web = .ok ({}, []) := rfl
  obtain ⟨configMap, hinject⟩ : ∃ configMap, injectDocument webTools web {} image = .ok (webInjected, configMap) :=
    ⟨_, rfl⟩
  obtain ⟨out, hprint⟩ : ∃ out, printDocuments webTools webInjected configMap = .ok out := by
    obtain ⟨workloadYaml, hworkload⟩ := webTools_toYaml webInjected
    obtain ⟨cmYaml, hcm⟩ := webTools_toYaml configMap
    unfold printDocuments
    rw [hworkload, hcm]
    exact ⟨_, rfl⟩
  have hrun : runWithImage webTools (unlines webLines) image = .ok out := by
    rw [runWithImage_of_enabled hdoc hp rfl hinject, hprint]
  obtain ⟨name, path, doc', configMap', hname, ⟨kind, hkind, hof⟩, hframe, hinject', -, hagain⟩ :=
    (inject_adds_pieces webTools).1 _ image web {} [] out hdoc hp rfl hrun
  rw [hinject] at hinject'
  cases hinject'
  have hfromYaml : webTools.fromYaml (unlines webInjectedLines) = .ok webInjected := by
    have hne : unlines webInjectedLines ≠ unlines webLines := by decide +kernel
    simp [webTools, hne]
  have hcli := (inject_adds_pieces webTools).2 "" ["--image"] none
  cases hname
  cases hkind
  cases hof
  exact ⟨⟨out, hrun⟩, hframe, hagain _ image hfromYaml, hcli (by decide +kernel)⟩

end sample

end Inject

end OpenRusty
