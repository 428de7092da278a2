import OpenRusty.Lib.Toml
import OpenRusty.Server.Inject.Agree

/-!
This module contains what the rendered configuration of the sidecar says. Its lines are read back as the
parameters that they were rendered from, except for the gateway: its text is copied between two quotes as it
is, so that it can end the string and go on with settings of its own.
-/

namespace OpenRusty

namespace Inject

open Toml

section settings

variable (p : InjectParams)

def listenAddr (port : UInt16) : String := "0.0.0.0:" ++ toString port

def serverSettings : Nodes :=
  [
    ([.key "server"], .table),
    ([.key "server", .key "listen"], .string (listenAddr inboundPort)),
    ([.key "server", .key "log_level"], .string p.logLevel)
  ]

def listenersAddr : Addr := [.key "server", .key "listeners"]

def listenerSettings (i : Nat) (settings : List (String × Node)) : Nodes :=
  (listenersAddr ++ [.index i], .table) :: settings.map fun e => (listenersAddr ++ [.index i, .key e.1], e.2)

def inboundSettings : Nodes :=
  listenerSettings 0 [
    ("role", .string "inbound"),
    ("listen", .string (listenAddr inboundPort)),
    ("transparent", .bool true)
  ]

def outboundSettings : Nodes :=
  listenerSettings 1 [
    ("role", .string "outbound"),
    ("listen", .string (listenAddr outboundPort)),
    ("transparent", .bool true)
  ]

def adminSettings : Nodes := listenerSettings 2 [("role", .string "admin"), ("listen", .string (listenAddr adminPort))]

def listenersSettings : Nodes := (listenersAddr, .tables) :: inboundSettings ++ outboundSettings ++ adminSettings

def pluginsSettings : Nodes := [([.key "plugins"], .table), ([.key "plugins", .key "dir"], .string pluginsDir)]

def egressSettings : Nodes :=
  [([.key "egress"], .table), ([.key "egress", .key "mode"], .string (egressModeStr p.egressMode))]

def gatewaySettings : Nodes :=
  if p.egressMode = .gateway then [([.key "egress", .key "gateway"], .string p.egressGateway)] else []

def peerSettings (port : UInt16) : Nodes :=
  [
    ([.key "upstreams"], .tables),
    ([.key "upstreams", .index 0], .table),
    ([.key "upstreams", .index 0, .key "name"], .string "app"),
    ([.key "upstreams", .index 0, .key "peers"], .tables),
    ([.key "upstreams", .index 0, .key "peers", .index 0], .table),
    ([.key "upstreams", .index 0, .key "peers", .index 0, .key "addr"], .string ("127.0.0.1:" ++ toString port))
  ]

def routeSettings : Nodes :=
  [
    ([.key "routes"], .tables),
    ([.key "routes", .index 0], .table),
    ([.key "routes", .index 0, .key "path_prefix"], .string "/"),
    ([.key "routes", .index 0, .key "upstream"], .string "app")
  ]

def appSettings : Nodes :=
  match p.appPort with
  | some port => peerSettings port ++ routeSettings
  | none => []

def ingressSettings : Nodes := [([.key "ingress"], .table), ([.key "ingress", .key "enabled"], .bool false)]

def listenersUpTo : Nodes := serverSettings p ++ listenersSettings ++ pluginsSettings ++ egressSettings p

def sidecarDoc : Doc :=
  docOf (listenersUpTo p ++ gatewaySettings p ++ appSettings p ++ ingressSettings)

end settings

section statements

variable (p : InjectParams)

def serverStatements : List Statement :=
  [
    .skip,
    .skip,
    .table ["server"],
    .set "listen" (.string (listenAddr inboundPort)),
    .set "log_level" (.string p.logLevel),
    .skip
  ]

def transparentStatements (role : String) (port : UInt16) : List Statement :=
  [
    .tables ["server", "listeners"],
    .set "role" (.string role),
    .set "listen" (.string (listenAddr port)),
    .set "transparent" (.bool true),
    .skip
  ]

def adminStatements : List Statement :=
  [
    .tables ["server", "listeners"],
    .set "role" (.string "admin"),
    .set "listen" (.string (listenAddr adminPort)),
    .skip
  ]

def sectionStatements : List Statement :=
  [
    .table ["plugins"],
    .skip,
    .set "dir" (.string pluginsDir),
    .skip,
    .table ["egress"],
    .set "mode" (.string (egressModeStr p.egressMode))
  ]

def listenerStatements : List Statement :=
  serverStatements p ++ transparentStatements "inbound" inboundPort ++ transparentStatements "outbound" outboundPort
    ++ adminStatements ++ sectionStatements p

def appLines (port : UInt16) : List String :=
  [
    "",
    "[[upstreams]]",
    "name = \"app\"",
    "",
    "  [[upstreams.peers]]",
    "  addr = \"127.0.0.1:" ++ toString port ++ "\"",
    "",
    "[[routes]]",
    "path_prefix = \"/\"",
    "upstream = \"app\"",
    ""
  ]

def appStatements (port : UInt16) : List Statement :=
  [
    .skip,
    .tables ["upstreams"],
    .set "name" (.string "app"),
    .skip,
    .tables ["upstreams", "peers"],
    .set "addr" (.string ("127.0.0.1:" ++ toString port)),
    .skip,
    .tables ["routes"],
    .set "path_prefix" (.string "/"),
    .set "upstream" (.string "app"),
    .skip
  ]

def ingressLines : List String := ["[ingress]", "enabled = false"]

def ingressStatements : List Statement := [.table ["ingress"], .set "enabled" (.bool false)]

end statements

section exec

variable {p : InjectParams} {nodes : Nodes} {here : Addr}

theorem exec_server : execAll (serverStatements p) {} = some ⟨serverSettings p, [.key "server"]⟩ := by
  simp [serverStatements, execAll, Statement.exec, enter, openTable, serverSettings, List.lookup_cons]

theorem exec_inbound
    : execAll (transparentStatements "inbound" inboundPort) ⟨serverSettings p, here⟩
        =
      some ⟨serverSettings p ++ (listenersAddr, .tables) :: inboundSettings, listenersAddr ++ [.index 0]⟩ := by
  simp [transparentStatements, execAll, Statement.exec, enter, pushTable, serverSettings, inboundSettings,
    listenerSettings, listenersAddr, List.lookup_cons]

theorem exec_outbound
    : execAll (transparentStatements "outbound" outboundPort)
        ⟨serverSettings p ++ (listenersAddr, .tables) :: inboundSettings, here⟩
        =
      some ⟨serverSettings p ++ (listenersAddr, .tables) :: inboundSettings ++ outboundSettings,
        listenersAddr ++ [.index 1]⟩ := by
  simp [transparentStatements, execAll, Statement.exec, enter, pushTable, serverSettings, inboundSettings,
    outboundSettings, listenerSettings, listenersAddr, List.lookup_cons, count, Seg.isIndex]

theorem exec_admin
    : execAll adminStatements
        ⟨serverSettings p ++ (listenersAddr, .tables) :: inboundSettings ++ outboundSettings, here⟩
        =
      some ⟨serverSettings p ++ listenersSettings, listenersAddr ++ [.index 2]⟩ := by
  simp [adminStatements, execAll, Statement.exec, enter, pushTable, serverSettings, inboundSettings,
    outboundSettings, adminSettings, listenersSettings, listenerSettings, listenersAddr, List.lookup_cons, count,
    Seg.isIndex]

theorem exec_sections (hplugins : Fresh nodes "plugins") (hegress : Fresh nodes "egress")
    : execAll (sectionStatements p) ⟨nodes, here⟩
        =
      some ⟨nodes ++ pluginsSettings ++ egressSettings p, [.key "egress"]⟩ := by
  simp [sectionStatements, execAll, Statement.exec, enter, openTable, pluginsSettings, egressSettings,
    hplugins.lookup, hegress.lookup, List.lookup_append, List.lookup_cons]

theorem exec_app (hupstreams : Fresh nodes "upstreams") (hroutes : Fresh nodes "routes") (port : UInt16)
    : execAll (appStatements port) ⟨nodes, here⟩
        =
      some ⟨nodes ++ peerSettings port ++ routeSettings, [.key "routes", .index 0]⟩ := by
  simp [appStatements, execAll, Statement.exec, enter, pushTable, peerSettings, routeSettings, hupstreams.lookup,
    hroutes.lookup, count_of_fresh hupstreams, count_append, List.lookup_append, List.lookup_cons]
  simp [count, Seg.isIndex]

theorem exec_ingress (hingress : Fresh nodes "ingress")
    : execAll ingressStatements ⟨nodes, here⟩ = some ⟨nodes ++ ingressSettings, [.key "ingress"]⟩ := by
  simp [ingressStatements, execAll, Statement.exec, enter, openTable, ingressSettings, hingress.lookup,
    List.lookup_append, List.lookup_cons]

end exec

section reads

variable {d : Dialect} {p : InjectParams}

theorem reads_line {start key text : String} (hopens : Opens d start.toList key) (hplain : Plain text.toList)
    : Reads d (start ++ text ++ "\"").toList (.set key (.string text)) := by
  have hreads := reads_plain hopens hplain
  rw [String.ofList_toList] at hreads
  rw [String.toList_append, String.toList_append]
  exact hreads

theorem plain_toString (port : UInt16) : Plain (toString port).toList := by
  intro c hc
  have hdigit := isDigit_of_mem_toString hc
  simp only [Char.isDigit, Bool.and_eq_true, decide_eq_true_eq] at hdigit
  have hlower : 48 ≤ c.toNat := hdigit.1
  have hupper : c.toNat ≤ 57 := hdigit.2
  refine ⟨?_, ?_, ?_⟩
  . rintro rfl
    exact absurd hlower (by decide)
  . rintro rfl
    exact absurd hupper (by decide)
  . simp only [Toml.isControl, decide_eq_false_iff_not]
    omega

theorem plain_logLevel (h : p.logLevel ∈ logLevels) : Plain p.logLevel.toList := by
  have hall : ∀ level ∈ logLevels, Plain level.toList := by decide +kernel
  exact hall p.logLevel h

theorem plain_mode (mode : EgressMode) : Plain (egressModeStr mode).toList := by
  cases mode with
  | direct => decide +kernel
  | gateway => decide +kernel
  | deny => decide +kernel

def toLists (lines : List String) : List (List Char) := lines.map String.toList

theorem reads_listenerLines (h : p.logLevel ∈ logLevels)
    : List.Forall₂ (Reads d) (toLists (listenerLines p)) (listenerStatements p) := by
  have hlevel : Reads d ("log_level = \"" ++ p.logLevel ++ "\"").toList (.set "log_level" (.string p.logLevel)) :=
    reads_line (fun _ => rfl) (plain_logLevel h)
  have hmode : Reads d ("mode = \"" ++ egressModeStr p.egressMode ++ "\"").toList
      (.set "mode" (.string (egressModeStr p.egressMode))) :=
    reads_line (fun _ => rfl) (plain_mode p.egressMode)
  iterate 4 refine .cons (fun _ => ⟨_, rfl, rfl⟩) ?_
  refine .cons hlevel ?_
  iterate 20 refine .cons (fun _ => ⟨_, rfl, rfl⟩) ?_
  exact .cons hmode .nil

theorem reads_appLines (port : UInt16) : List.Forall₂ (Reads d) (toLists (appLines port)) (appStatements port) := by
  have haddr : Reads d ("  addr = \"" ++ ("127.0.0.1:" ++ toString port) ++ "\"").toList
      (.set "addr" (.string ("127.0.0.1:" ++ toString port))) := by
    apply reads_line fun _ => rfl
    rw [String.toList_append]
    intro c hc
    rcases List.mem_append.mp hc with hc | hc
    . have hstart : Plain "127.0.0.1:".toList := by decide +kernel
      exact hstart c hc
    . exact plain_toString port c hc
  have hsplit : ("  addr = \"127.0.0.1:" ++ toString port ++ "\"")
      = "  addr = \"" ++ ("127.0.0.1:" ++ toString port) ++ "\"" := by
    rw [← String.append_assoc]
    rfl
  unfold toLists appLines appStatements
  rw [hsplit]
  iterate 5 refine .cons (fun _ => ⟨_, rfl, rfl⟩) ?_
  refine .cons haddr ?_
  iterate 5 refine .cons (fun _ => ⟨_, rfl, rfl⟩) ?_
  exact .nil

theorem reads_ingressLines : List.Forall₂ (Reads d) (toLists ingressLines) ingressStatements := by
  iterate 2 refine .cons (fun _ => ⟨_, rfl, rfl⟩) ?_
  exact .nil

end reads

section lines

variable {p : InjectParams}

def linesOf (lines : List String) : List Char := (toLists lines).flatMap fun line => line ++ ['\n']

theorem toList_unlines (lines : List String) : (unlines lines).toList = linesOf lines := by
  unfold unlines linesOf toLists
  induction lines with
  | nil => rfl
  | cons line lines ih =>
    rw [List.map_cons, String.join_cons, String.toList_append, String.toList_append, ih]
    rfl

def tailOf (p : InjectParams) : String := appSection p ++ "[ingress]\nenabled = false\n"

theorem configToml_eq : configToml p = unlines (listenerLines p) ++ (gatewayLine p ++ tailOf p) := by
  unfold configToml tailOf
  simp only [String.append_assoc]

theorem tailOf_none (h : p.appPort = none) : tailOf p = unlines ingressLines := by
  rw [tailOf, appSection, h]
  rfl

theorem tailOf_some {port : UInt16} (h : p.appPort = some port)
    : tailOf p = unlines (appLines port) ++ unlines ingressLines := by
  have hingress : "[ingress]\nenabled = false\n" = unlines ingressLines := rfl
  rw [tailOf, appSection, h, hingress]
  simp only [unlines, appLines, String.join_cons, String.join_nil, List.map_cons, List.map_nil, String.append_empty,
    String.empty_append, String.append_assoc, String.reduceAppend]
  simp only [← String.append_assoc, String.reduceAppend]

theorem sparse_tailOf : Sparse (tailOf p).toList := by
  cases happ : p.appPort with
  | none =>
    rw [tailOf_none happ]
    decide +kernel
  | some port =>
    have hdigits : Sparse (toString port).toList := sparse_of_free fun hmem => (plain_toString port _ hmem).1 rfl
    rw [tailOf, appSection, happ]
    simp only [String.append_assoc]
    rw [String.toList_append, String.toList_append]
    refine List.isChain_append.mpr ⟨by decide +kernel, List.isChain_append.mpr ⟨hdigits, by decide +kernel, ?_⟩, ?_⟩
    . rintro c hc c' - ⟨rfl, -⟩
      exact (plain_toString port _ (List.mem_of_mem_getLast? hc)).1 rfl
    . rintro c hc c' - ⟨rfl, -⟩
      revert hc
      decide

end lines

section read

variable {d : Dialect} {p : InjectParams} {key : String}

theorem fresh_listeners (h : key ≠ "server") : Fresh (serverSettings p ++ listenersSettings) key := by
  simp [Fresh, serverSettings, listenersSettings, inboundSettings, outboundSettings, adminSettings, listenerSettings,
    listenersAddr, h.symm]

theorem fresh_settings (h : key ∉ ["server", "plugins", "egress"])
    : Fresh (listenersUpTo p ++ gatewaySettings p) key := by
  simp only [List.mem_cons, List.not_mem_nil, or_false, not_or] at h
  intro e he
  rw [listenersUpTo, List.mem_append, List.mem_append, List.mem_append] at he
  rcases he with ((he | he) | he) | he
  . exact fresh_listeners h.1 e he
  . simp only [pluginsSettings, List.mem_cons, List.not_mem_nil, or_false] at he
    rcases he with rfl | rfl <;> simpa using Ne.symm h.2.1
  . simp only [egressSettings, List.mem_cons, List.not_mem_nil, or_false] at he
    rcases he with rfl | rfl <;> simpa using Ne.symm h.2.2
  . unfold gatewaySettings at he
    split at he
    . rw [List.mem_singleton] at he
      rw [he]
      simpa using Ne.symm h.2.2
    . cases he

theorem fresh_app (h : key ∉ ["upstreams", "routes"]) : Fresh (appSettings p) key := by
  simp only [List.mem_cons, List.not_mem_nil, or_false, not_or] at h
  unfold appSettings
  split
  . simp [Fresh, peerSettings, routeSettings, Ne.symm h.1, Ne.symm h.2]
  . simp [Fresh]

theorem exec_listeners : execAll (listenerStatements p) {} = some ⟨listenersUpTo p, [.key "egress"]⟩ := by
  unfold listenerStatements
  rw [execAll_append, execAll_append, execAll_append, execAll_append, exec_server, Option.bind_some, exec_inbound,
    Option.bind_some, exec_outbound, Option.bind_some, exec_admin, Option.bind_some,
    exec_sections (fresh_listeners (by decide)) (fresh_listeners (by decide))]
  rfl

theorem readFrom_listeners (h : p.logLevel ∈ logLevels) (rest : String)
    : readDoc d (unlines (listenerLines p) ++ rest)
        =
      readFrom d ⟨listenersUpTo p, [.key "egress"]⟩ rest.toList := by
  rw [readDoc, String.toList_append, toList_unlines]
  exact readFrom_lines (reads_listenerLines h) exec_listeners

theorem readFrom_tail {here : Addr}
    : readFrom d ⟨listenersUpTo p ++ gatewaySettings p, here⟩ (tailOf p).toList
        =
      .complete (listenersUpTo p ++ gatewaySettings p ++ appSettings p ++ ingressSettings) := by
  have hingress : Fresh (listenersUpTo p ++ gatewaySettings p ++ appSettings p) "ingress" :=
    Fresh.append (fresh_settings (by decide)) (fresh_app (by decide))
  have hend : ∀ here, readFrom d ⟨listenersUpTo p ++ gatewaySettings p ++ appSettings p, here⟩ (linesOf ingressLines)
      = .complete (listenersUpTo p ++ gatewaySettings p ++ appSettings p ++ ingressSettings) := by
    intro here
    rw [← List.append_nil (linesOf ingressLines), linesOf, readFrom_lines reads_ingressLines (exec_ingress hingress),
      readFrom_nil]
  cases happ : p.appPort with
  | none =>
    have hsettings : appSettings p = [] := by rw [appSettings, happ]
    rw [tailOf_none happ, toList_unlines]
    rw [hsettings, List.append_nil] at hend ⊢
    exact hend here
  | some port =>
    have hsettings : appSettings p = peerSettings port ++ routeSettings := by rw [appSettings, happ]
    rw [tailOf_some happ, String.toList_append, toList_unlines, toList_unlines]
    rw [hsettings, ← List.append_assoc] at hend ⊢
    rw [linesOf, readFrom_lines (reads_appLines port)
      (exec_app (fresh_settings (by decide)) (fresh_settings (by decide)) port)]
    exact hend _

theorem lookup_gateway : (listenersUpTo p).lookup [.key "egress", .key "gateway"] = none := by
  rw [listenersUpTo, List.lookup_append, List.lookup_append, (fresh_listeners (by decide)).lookup]
  simp [pluginsSettings, egressSettings, List.lookup_cons]

theorem readDoc_plain (h : p.logLevel ∈ logLevels)
    (hplain : p.egressMode = .gateway → Plain p.egressGateway.toList)
    : readDoc d (configToml p)
        =
      .complete (listenersUpTo p ++ gatewaySettings p ++ appSettings p ++ ingressSettings) := by
  rw [configToml_eq, readFrom_listeners h, ← readFrom_tail]
  by_cases hmode : p.egressMode = .gateway
  . have hreads : Reads d ("gateway = \"" ++ p.egressGateway ++ "\"").toList
        (.set "gateway" (.string p.egressGateway)) :=
      reads_line (fun _ => rfl) (hplain hmode)
    have hline : (gatewayLine p ++ tailOf p).toList
        = ("gateway = \"" ++ p.egressGateway ++ "\"").toList ++ '\n' :: (tailOf p).toList := by
      rw [gatewayLine, if_pos hmode]
      simp
    have hexec : (Statement.set "gateway" (.string p.egressGateway)).exec ⟨listenersUpTo p, [.key "egress"]⟩
        = some ⟨listenersUpTo p ++ gatewaySettings p, [.key "egress"]⟩ := by
      rw [gatewaySettings, if_pos hmode]
      simp [Statement.exec, lookup_gateway]
    rw [hline]
    exact readFrom_cons hreads hexec
  . have hline : gatewayLine p ++ tailOf p = tailOf p := by
      rw [gatewayLine, if_neg hmode, String.empty_append]
    have hsettings : gatewaySettings p = [] := by rw [gatewaySettings, if_neg hmode]
    rw [hline, hsettings, List.append_nil]

end read

section standard

variable {parse : String → Except String Doc} {p : InjectParams}

theorem gateway_ne (hparse : Standard parse) (h : p.logLevel ∈ logLevels) (hmode : p.egressMode = .gateway)
    (hplain : ¬Plain p.egressGateway.toList) {doc : Doc} (hdoc : parse (configToml p) = .ok doc)
    : doc [.key "egress", .key "gateway"] ≠ some (.string p.egressGateway) := by
  obtain ⟨d, hstandard⟩ := hparse
  have hallows := hstandard (configToml p)
  rw [hdoc] at hallows
  obtain ⟨nodes, hnodes, hget⟩ := hallows.get
  have hline : (gatewayLine p ++ tailOf p).toList
      = "gateway = \"".toList ++ p.egressGateway.toList ++ '"' :: '\n' :: (tailOf p).toList := by
    rw [gatewayLine, if_pos hmode]
    simp
  rw [configToml_eq, readFrom_listeners h, hline] at hnodes
  have hopens : Opens d "gateway = \"".toList "gateway" := fun _ => rfl
  have hfree : (State.mk (listenersUpTo p) [.key "egress"]).nodes.lookup ([.key "egress"] ++ [.key "gateway"]) = none :=
    lookup_gateway
  obtain ⟨v, hne, hprefix⟩ := readFrom_quote hopens hplain sparse_tailOf hfree hnodes
  have hread : docOf nodes [.key "egress", .key "gateway"] = some (.string (String.ofList v)) := by
    apply docOf_of_prefix hprefix
    rw [docOf, List.lookup_append, List.singleton_append, lookup_gateway]
    simp
  rw [hget _ _ hread]
  intro heq
  apply hne
  simp only [Option.some.injEq, Node.string.injEq] at heq
  rw [← heq, String.toList_ofList]

end standard

theorem sidecarDoc_gateway {p : InjectParams} (hmode : p.egressMode = .gateway)
    : sidecarDoc p [.key "egress", .key "gateway"] = some (.string p.egressGateway) := by
  rw [sidecarDoc, docOf, List.lookup_append, List.lookup_append, List.lookup_append, lookup_gateway, gatewaySettings,
    if_pos hmode]
  simp

def fromToml (parse : String → Except String Doc) (load : Doc → Except String GatewayConfig) (src : String)
    : Except String GatewayConfig :=
  (parse src).bind load

theorem renderConfigToml_eq_ok {parse : String → Except String Doc} {load : Doc → Except String GatewayConfig}
    {env : ConfigEnv} {p : InjectParams} {src : String}
    (h : renderConfigToml (fromToml parse load) env p = .ok src)
    : src = configToml p ∧ ∃ doc, parse (configToml p) = .ok doc := by
  unfold renderConfigToml at h
  generalize configToml p = toml at h ⊢
  split at h
  . cases h
  . split at h
    . cases h
    . next cfg hcfg =>
      have hsrc : src = toml := by
        split at h
        . cases h
          rfl
        . split at h
          . cases h
            rfl
          . cases h
      obtain ⟨doc, hdoc, -⟩ := Except.bind_eq_ok.mp hcfg
      exact ⟨hsrc, doc, hdoc⟩

theorem renderConfigToml_of_valid {fromToml : String → Except String GatewayConfig} {env : ConfigEnv}
    {p : InjectParams} {cfg : GatewayConfig} (hgateway : p.egressGateway.isEmpty = false)
    (hcfg : fromToml (configToml p) = .ok cfg) (hvalid : cfg.validate env = .ok ())
    : renderConfigToml fromToml env p = .ok (configToml p) := by
  unfold renderConfigToml
  rw [hgateway, Bool.and_false, if_neg (by simp), hcfg]
  dsimp only
  rw [hvalid]

theorem rendered_says_params_iff {parse : String → Except String Doc} (hparse : Standard parse)
    (load : Doc → Except String GatewayConfig) (env : ConfigEnv) {debug : String → String} {a : Annotations}
    {p : InjectParams} (hp : parseAnnotations debug a = .ok p) {src : String}
    (hsrc : renderConfigToml (fromToml parse load) env p = .ok src)
    : parse src = .ok (sidecarDoc p) ↔ (p.egressMode = .gateway → Plain p.egressGateway.toList) := by
  obtain ⟨rfl, doc, hdoc⟩ := renderConfigToml_eq_ok hsrc
  constructor
  . intro hagree hmode
    by_contra hplain
    exact gateway_ne hparse (logLevel_mem hp) hmode hplain hagree (sidecarDoc_gateway hmode)
  . intro hplain
    obtain ⟨d, hstandard⟩ := hparse
    have hallows := hstandard (configToml p)
    rw [readDoc_plain (logLevel_mem hp) hplain] at hallows
    exact hallows

section sample

def textAt (doc : Doc) (a : Addr) : Option String :=
  match doc a with
  | some (.string text) => some text
  | _ => none

def gatewayConfig (doc : Doc) : GatewayConfig :=
  let anyAddr := fun port => SocketAddr.mk (.v4 0) port
  {
    server := {
      listen := anyAddr 4143
      logLevel := (textAt doc [.key "server", .key "log_level"]).getD "warn"
      listeners := [
        { role := .inbound, listen := anyAddr 4143, transparent := true },
        { role := .outbound, listen := anyAddr 4140, transparent := true },
        { role := .admin, listen := anyAddr 4191 }
      ]
    }
    admin := { token := textAt doc [.key "admin", .key "token"] }
    plugins := { dir := (textAt doc [.key "plugins", .key "dir"]).getD "" }
    egress := { mode := .gateway, gateway := (textAt doc [.key "egress", .key "gateway"]).getD "" }
  }

def loadGateway (doc : Doc) : Except String GatewayConfig := .ok (gatewayConfig doc)

def gatewayEnv : ConfigEnv where
  lookupHost host := if host = "10.0.0.1:15008" then some [⟨.v4 0x0a000001, 15008⟩] else none
  debug text := "\"" ++ text ++ "\""

def gatewayAnnotations (gateway : String) : Annotations where
  entries := [(annotationPrefix ++ "egress-gateway", gateway), (annotationPrefix ++ "egress-mode", "gateway")]
  sorted := by
    have hlt : annotationPrefix ++ "egress-gateway" < annotationPrefix ++ "egress-mode" := by decide +kernel
    rw [List.pairwise_pair]
    exact hlt

def plainParams : InjectParams := { egressMode := .gateway, egressGateway := "10.0.0.1:15008" }

theorem rendered_says_params_iff_plain : reader .unix (configToml plainParams) = .ok (sidecarDoc plainParams) := by
  have hp : parseAnnotations id (gatewayAnnotations "10.0.0.1:15008") = .ok plainParams := rfl
  have hplain : Plain plainParams.egressGateway.toList := by decide +kernel
  have hread : reader .unix (configToml plainParams) = .ok (sidecarDoc plainParams) := by
    rw [reader, readDoc_plain (logLevel_mem hp) fun _ => hplain]
    rfl
  have hload : fromToml (reader .unix) loadGateway (configToml plainParams)
      = .ok (gatewayConfig (sidecarDoc plainParams)) := by
    rw [fromToml, hread]
    rfl
  have hvalid : (gatewayConfig (sidecarDoc plainParams)).validate gatewayEnv = .ok () := by
    rfl
  have hsrc := renderConfigToml_of_valid (by decide) hload hvalid
  exact (rendered_says_params_iff (standard_reader .unix) loadGateway gatewayEnv hp hsrc).mpr fun _ => hplain

def overridingParams : InjectParams :=
  { egressMode := .gateway, egressGateway := "10.0.0.1:15008\"\n[admin]\ntoken = \"x" }

def overridingLines : List String := ["gateway = \"10.0.0.1:15008\"", "[admin]", "token = \"x\""] ++ ingressLines

def overridingSettings : Nodes :=
  [
    ([.key "egress", .key "gateway"], .string "10.0.0.1:15008"),
    ([.key "admin"], .table),
    ([.key "admin", .key "token"], .string "x")
  ]
  ++ ingressSettings

theorem readDoc_overriding
    : readDoc .unix (configToml overridingParams) = .complete (listenersUpTo overridingParams ++ overridingSettings) := by
  have hlevel : overridingParams.logLevel ∈ logLevels := by decide
  have hlines : gatewayLine overridingParams ++ tailOf overridingParams = unlines overridingLines := by decide +kernel
  have hreads : List.Forall₂ (Reads .unix) (toLists overridingLines)
      ([.set "gateway" (.string "10.0.0.1:15008"), .table ["admin"], .set "token" (.string "x")] ++ ingressStatements) := by
    iterate 5 refine .cons (fun _ => ⟨_, rfl, rfl⟩) ?_
    exact .nil
  have hadmin : Fresh (listenersUpTo overridingParams) "admin" := fun e he =>
    fresh_settings (by decide) e (List.mem_append_left _ he)
  have hingress : Fresh (listenersUpTo overridingParams) "ingress" := fun e he =>
    fresh_settings (by decide) e (List.mem_append_left _ he)
  have hexec : execAll ([.set "gateway" (.string "10.0.0.1:15008"), .table ["admin"], .set "token" (.string "x")]
      ++ ingressStatements) ⟨listenersUpTo overridingParams, [.key "egress"]⟩
      = some ⟨listenersUpTo overridingParams ++ overridingSettings, [.key "ingress"]⟩ := by
    simp [execAll, Statement.exec, enter, openTable, ingressStatements, overridingSettings, ingressSettings,
      lookup_gateway, hadmin.lookup, hingress.lookup, List.lookup_append, List.lookup_cons]
  rw [configToml_eq, readFrom_listeners hlevel, hlines, toList_unlines, ← List.append_nil (linesOf overridingLines),
    linesOf, readFrom_lines hreads hexec, readFrom_nil]

theorem gateway_adds_token
    : parseAnnotations id (gatewayAnnotations overridingParams.egressGateway) = .ok overridingParams
      ∧ renderConfigToml (fromToml (reader .unix) loadGateway) gatewayEnv overridingParams
        = .ok (configToml overridingParams)
      ∧ ∃ doc, reader .unix (configToml overridingParams) = .ok doc
        ∧ doc [.key "admin", .key "token"] = some (.string "x")
        ∧ (gatewayConfig doc).admin.effectiveToken = some "x"
        ∧ sidecarDoc overridingParams [.key "admin", .key "token"] = none
        ∧ reader .unix (configToml overridingParams) ≠ .ok (sidecarDoc overridingParams) := by
  have hread : reader .unix (configToml overridingParams)
      = .ok (docOf (listenersUpTo overridingParams ++ overridingSettings)) := by
    rw [reader, readDoc_overriding]
  have hload : fromToml (reader .unix) loadGateway (configToml overridingParams)
      = .ok (gatewayConfig (docOf (listenersUpTo overridingParams ++ overridingSettings))) := by
    rw [fromToml, hread]
    rfl
  have htoken : docOf (listenersUpTo overridingParams ++ overridingSettings) [.key "admin", .key "token"]
      = some (.string "x") := rfl
  have hnone : sidecarDoc overridingParams [.key "admin", .key "token"] = none := rfl
  refine ⟨rfl, renderConfigToml_of_valid (by decide) hload rfl, _, hread, htoken, by decide +kernel, hnone, ?_⟩
  intro hagree
  rw [hread, Except.ok.injEq] at hagree
  rw [hagree, hnone] at htoken
  cases htoken

end sample

end Inject

end OpenRusty
