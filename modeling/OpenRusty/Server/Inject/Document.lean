import Mathlib.Data.String.Basic
import OpenRusty.Lib.Yaml
import OpenRusty.Server.Init.Basic
import OpenRusty.Server.Inject.Config

/-!
This module contains what `inject` does with a document (`inject/mod.rs`, `inject/render.rs`): it reads
the annotations, finds the pod spec for the kind of the document, appends its three pieces to the lists of
the spec in place, and prints the document and the ConfigMap. The YAML library is a parameter.
-/

namespace OpenRusty

namespace Inject

open Yaml

def initName : String := "openrusty-init"

def sidecarName : String := "openrusty-proxy"

def configVolumeName : String := "openrusty-config"

def configMount : String := "/etc/openrusty"

def configPath : String := "/etc/openrusty/openrusty.toml"

def image : String := "ghcr.io/openrusty/openrusty:0.0.0-placeholder"

def opaquePortsEnv : String := "OPENRUSTY_OPAQUE_PORTS"

def managedByLabel : String := "app.kubernetes.io/managed-by"

def managedBy : String := "openrusty-inject"

def configKey : String := "openrusty.toml"

section accessors

def metadataOf (doc : Value) : Option Value := doc.get "metadata"

def podTemplateMetadata (doc : Value) : Option Value := doc.getPath ["spec", "template", "metadata"]

def annotations (metadata : Value) : List (String × Value) :=
  match (metadata.get "annotations").bind Value.asMapping with
  | some entries => entries.filterMap fun e => e.1.asStr.map fun k => (k, e.2)
  | none => []

def scalarString (v : Value) : Option String :=
  match v with
  | .string s => some s
  | .number n => some n.toString
  | .bool b => some (toString b)
  | _ => none

def workloadName (doc : Value) : Except String String :=
  match ((metadataOf doc).bind fun m => m.get "name").bind scalarString with
  | some name => .ok name
  | none => .error "workload has no metadata.name (cannot name the config ConfigMap)"

def namespaceOf (doc : Value) : Option String :=
  ((metadataOf doc).bind fun m => m.get "namespace").bind scalarString

def podPath : List String := ["spec"]

def podTemplatePath : List String := ["spec", "template", "spec"]

def cronjobPodPath : List String := ["spec", "jobTemplate", "spec", "template", "spec"]

def pathOfKind (kind : String) : Option (List String) :=
  match kind with
  | "Pod" => some podPath
  | "Deployment" | "ReplicaSet" | "StatefulSet" | "DaemonSet" | "Job" => some podTemplatePath
  | "CronJob" => some cronjobPodPath
  | _ => none

def podSpec (debug : String → String) (doc : Value) : Except String (List String × Value) :=
  match (doc.get "kind").bind Value.asStr with
  | none => .error "document has no kind"
  | some kind =>
    match pathOfKind kind with
    | none =>
      .error ("kind " ++ debug kind ++ " is not injectable in v1: only Pod and pod-template workloads "
        ++ "(Deployment/ReplicaSet/StatefulSet/DaemonSet/Job/CronJob) are supported")
    | some path =>
      match doc.getPath path with
      | none =>
        .error ("no pod spec at ." ++ ".".intercalate path ++ ": is this a valid " ++ kind ++ " manifest?")
      | some spec =>
        if ((spec.get "containers").bind Value.asSequence).isSome then
          .ok (path, spec)
        else
          .error ("pod spec at ." ++ ".".intercalate path ++ " has no containers")

end accessors

section collect

def insertEntry (key value : String) (entries : List (String × String)) : List (String × String) :=
  match entries with
  | [] => [(key, value)]
  | e :: entries =>
    if key < e.1 then
      (key, value) :: e :: entries
    else if key = e.1 then
      (key, value) :: entries
    else
      e :: insertEntry key value entries

theorem mem_insertEntry {key value : String} {entries : List (String × String)} {e : String × String}
    (h : e ∈ insertEntry key value entries)
    : e.1 = key ∨ e ∈ entries := by
  fun_induction insertEntry key value entries with
  | case1 => simp_all
  | case2 e' entries hlt =>
    rcases List.mem_cons.mp h with rfl | h
    . exact .inl rfl
    . exact .inr h
  | case3 e' entries hlt heq =>
    rcases List.mem_cons.mp h with rfl | h
    . exact .inl rfl
    . exact .inr (List.mem_cons_of_mem _ h)
  | case4 e' entries hlt hne ih =>
    rcases List.mem_cons.mp h with rfl | h
    . exact .inr List.mem_cons_self
    . exact (ih h).imp_right (List.mem_cons_of_mem _)

theorem sorted_insertEntry {key value : String} {entries : List (String × String)}
    (h : entries.Pairwise fun a b => a.1 < b.1)
    : (insertEntry key value entries).Pairwise fun a b => a.1 < b.1 := by
  fun_induction insertEntry key value entries with
  | case1 => simp
  | case2 e entries hlt =>
    refine List.pairwise_cons.mpr ⟨?_, h⟩
    intro e' he'
    rcases List.mem_cons.mp he' with rfl | he'
    . exact hlt
    . exact lt_trans hlt ((List.pairwise_cons.mp h).1 e' he')
  | case3 e entries hlt heq =>
    rw [List.pairwise_cons] at h ⊢
    rw [heq]
    exact h
  | case4 e entries hlt hne ih =>
    rw [List.pairwise_cons] at h ⊢
    refine ⟨?_, ih h.2⟩
    intro e' he'
    rcases mem_insertEntry he' with heq | he'
    . rw [heq]
      exact lt_of_le_of_ne (not_lt.mp hlt) (Ne.symm hne)
    . exact h.1 e' he'

def Annotations.empty : Annotations := ⟨[], .nil⟩

def Annotations.insert (a : Annotations) (key value : String) : Annotations :=
  ⟨insertEntry key value a.entries, sorted_insertEntry a.sorted⟩

structure Collected where
  merged : Annotations := .empty
  warnings : List String := []

def Collected.push (c : Collected) (e : String × Value) : Collected :=
  match scalarString e.2 with
  | some s => { c with merged := c.merged.insert e.1 s }
  | none => { c with warnings := c.warnings ++ ["annotation " ++ e.1 ++ " is not a scalar; ignored"] }

/-- Later sources win. -/
def collect (sources : List Value) : Collected := (sources.flatMap annotations).foldl Collected.push {}

def collectAnnotations (debug : String → String) (doc : Value)
    : Except String (InjectParams × List String) :=
  let c := collect ((metadataOf doc).toList ++ (podTemplateMetadata doc).toList)
  (parseAnnotations debug c.merged).map fun p => (p, c.warnings)

end collect

section pieces

def object (fields : List (String × Value)) : Value := .mapping (fields.map fun f => (.string f.1, f.2))

def strings (l : List String) : Value := .sequence (l.map .string)

def number (n : Nat) : Value := .number (.int n)

def initCaps : List String := ["NET_ADMIN", "NET_RAW"]

def initContainer (p : InjectParams) (image : String) : Value :=
  object [
    ("name", .string initName),
    ("image", .string image),
    ("command", strings (initCommand p)),
    ("securityContext", object [("runAsUser", number 0), ("capabilities", object [("add", strings initCaps)])])
  ]

def opaqueEnv (p : InjectParams) : List (String × Value) :=
  if p.opaquePorts.isEmpty then
    []
  else
    let ports := ",".intercalate (p.opaquePorts.map toString)
    [("env", .sequence [object [("name", .string opaquePortsEnv), ("value", .string ports)]])]

def containerPort (name : String) (n : UInt16) : Value :=
  object [("name", .string name), ("containerPort", number n.toNat)]

def sidecar (p : InjectParams) (image : String) : Value :=
  object ([
    ("name", .string sidecarName),
    ("image", .string image),
    ("args", strings [configPath])
  ] ++ opaqueEnv p ++ [
    ("ports", .sequence [
      containerPort "proxy" inboundPort,
      containerPort "outbound" outboundPort,
      containerPort "admin" adminPort
    ]),
    ("securityContext", object [("runAsUser", number p.proxyUid.toNat)]),
    ("volumeMounts", .sequence [
      object [("name", .string configVolumeName), ("mountPath", .string configMount), ("readOnly", .bool true)]
    ])
  ])

def configVolume (cmName : String) : Value :=
  object [("name", .string configVolumeName), ("configMap", object [("name", .string cmName)])]

def configMapName (name : String) : String := name ++ "-openrusty-config"

def renderConfigMap (renderToml : InjectParams → Except String String) (name : String)
    (namesp : Option String) (p : InjectParams)
    : Except String Value :=
  (renderToml p).map fun toml =>
    object [
      ("apiVersion", .string "v1"),
      ("kind", .string "ConfigMap"),
      ("metadata", object ([("name", .string (configMapName name))]
        ++ (namesp.toList.map fun ns => ("namespace", .string ns))
        ++ [("labels", object [(managedByLabel, .string managedBy)])])),
      ("data", object [(configKey, .string toml)])
    ]

end pieces

section inject

def containerNames (spec : Value) (key : String) : List String :=
  match (spec.get key).bind Value.asSequence with
  | some items => items.filterMap fun c => (c.get "name").bind Value.asStr
  | none => []

def append (spec : Value) (key : String) (item : Value) : Except String Value :=
  match spec with
  | .tagged tag v => (append v key item).map (.tagged tag)
  | .mapping entries =>
    match Value.lookup key entries with
    | some list =>
      match Value.push item list with
      | some list => .ok (.mapping (Value.replace key list entries))
      | none => .error ("pod spec ." ++ key ++ " is not a list")
    | none => .ok (.mapping (entries ++ [(.string key, .sequence [item])]))
  | _ => .error "pod spec is not a mapping"

def injectPodSpec (spec : Value) (p : InjectParams) (image cmName : String) : Except String Value :=
  if (containerNames spec "initContainers").contains initName
      || (containerNames spec "containers").contains sidecarName then
    .error ("pod already carries openrusty pieces (" ++ initName ++ "/" ++ sidecarName
      ++ "): refusing to inject twice")
  else do
    let spec ← append spec "initContainers" (initContainer p image)
    let spec ← append spec "containers" (sidecar p image)
    append spec "volumes" (configVolume cmName)

end inject

section run

/-- The library that reads and prints YAML, and what else the command depends on. -/
structure Tools where
  fromYaml : String → Except String Value
  toYaml : Value → Except String String
  debug : String → String
  renderToml : InjectParams → Except String String

variable (tools : Tools)

def readDocument (raw : String) : Except String Value :=
  if isBlank raw then
    .error "empty input: expected exactly one workload YAML document on stdin"
  else
    (tools.fromYaml raw).mapError fun e =>
      if contains e "more than one document" then
        "multi-document input is not supported in v1: pipe exactly one workload document "
          ++ "(split with `yq` or `sed` first)"
      else
        "invalid YAML: " ++ e

def injectDocument (doc : Value) (p : InjectParams) (image : String) : Except String (Value × Value) := do
  let name ← workloadName doc
  let (path, spec) ← podSpec tools.debug doc
  let spec ← injectPodSpec spec p image (configMapName name)
  let doc := doc.setPath path spec
  let configMap ← renderConfigMap tools.renderToml name (namespaceOf doc) p
  return (doc, configMap)

def trimEnd (s : String) : String := String.ofList (s.toList.rdropWhile isWhiteSpace)

def printDocuments (doc configMap : Value) : Except String String := do
  let workloadYaml ← (tools.toYaml doc).mapError fun e => "cannot re-render the workload: " ++ e
  let cmYaml ← (tools.toYaml configMap).mapError fun e => "cannot render the config ConfigMap: " ++ e
  return trimEnd workloadYaml ++ "\n---\n" ++ trimEnd cmYaml ++ "\n"

def runWithImage (raw image : String) : Except String String := do
  let doc ← readDocument tools raw
  let (p, _) ← collectAnnotations tools.debug doc
  if p.enabled then
    let (doc, configMap) ← injectDocument tools doc p image
    printDocuments tools doc configMap
  else
    return raw

def parseCliArgs (argv : List String) (image : Option String) : Except String (Option String) :=
  match argv with
  | [] => .ok image
  | arg :: argv =>
    match Init.splitFlag arg with
    | ("--image", some value) => parseCliArgs argv (some value)
    | ("--image", none) =>
      match argv with
      | value :: argv => parseCliArgs argv (some value)
      | [] => .error "--image needs a value"
    | (flag, _) => .error ("unknown flag '" ++ flag ++ "' (see --help)")

/-- The exit code, and what is written to the standard output. An input that is not UTF-8 is none. -/
def runCli (usage : String) (argv : List String) (input : Option String) : Nat × String :=
  if argv.any fun a => a = "-h" || a = "--help" then
    (0, usage)
  else
    match parseCliArgs argv none with
    | .error _ => (2, "")
    | .ok flag =>
      match input with
      | none => (1, "")
      | some raw =>
        match runWithImage tools raw (flag.getD image) with
        | .ok rendered => (0, rendered)
        | .error _ => (1, "")

end run

end Inject

end OpenRusty
