import OpenRusty.Server.Init.Basic
import OpenRusty.Server.Inject.ConfigLemmas
import OpenRusty.Server.Inject.Lemmas

/-!
This module contains the agreement of `inject` with the init container that it adds: what the annotations
say, what the configuration listens on and what `iptables-init` reads from its flags. The flags know no
port 0, the annotations do.
-/

namespace OpenRusty

namespace Inject

section print

theorem isWhiteSpace_of_isDigit {c : Char} (h : c.isDigit = true) : isWhiteSpace c = false := by
  simp only [Char.isDigit, Bool.and_eq_true, decide_eq_true_eq] at h
  have hlow : 48 ≤ c.toNat := h.1
  have hhigh : c.toNat ≤ 57 := h.2
  simp only [isWhiteSpace, decide_eq_false_iff_not]
  omega

theorem trim_toString (port : UInt16) : trim (toString port) = toString port := by
  apply trim_eq_self
  intro c hc
  exact isWhiteSpace_of_isDigit (isDigit_of_mem_toString hc)

theorem toString_ne_empty (port : UInt16) : (toString port).isEmpty = false := by
  rw [String.isEmpty_eq_false_iff, ← String.toList_inj.ne]
  exact fun h => Nat.toDigits_ne_nil ((toList_toString port.toNat).symm.trans h)

theorem comma_notMem_toString (port : UInt16) : ',' ∉ (toString port).toList := by
  intro h
  have : Char.isDigit ',' = true := isDigit_of_mem_toString h
  cases this

theorem parsePort_toString (port : UInt16)
    : Init.parsePort (toString port)
        = if port = 0 then .error (Init.parsePort.invalidPort (toString port)) else .ok port := by
  rw [Init.parsePort, parseU16_toString]

theorem parsePorts_print {ports : List UInt16} (hne : ports ≠ [])
    : Init.parsePorts (",".intercalate (ports.map toString))
        = ports.mapM fun port => Init.parsePort (toString port) := by
  have hsplit : splitChar ',' (",".intercalate (ports.map toString)) = ports.map toString := by
    show splitChar ',' ((String.singleton ',').intercalate (ports.map toString)) = ports.map toString
    apply splitChar_intercalate
    . intro part hpart
      rcases List.mem_map.mp hpart with ⟨port, -, rfl⟩
      exact comma_notMem_toString port
    . simpa using hne
  have hkept : ((ports.map toString).filter fun x => !(trim x).isEmpty) = ports.map toString := by
    rw [List.filter_eq_self]
    intro part hpart
    rcases List.mem_map.mp hpart with ⟨port, -, rfl⟩
    rw [trim_toString, toString_ne_empty]
    rfl
  unfold Init.parsePorts
  rw [hsplit, hkept, List.mapM_map]
  simp only [Function.comp_def, trim_toString]

theorem parsePorts_ok {ports : List UInt16} (hne : ports ≠ []) (h : 0 ∉ ports)
    : Init.parsePorts (",".intercalate (ports.map toString)) = .ok ports := by
  rw [parsePorts_print hne]
  clear hne
  induction ports with
  | nil => rfl
  | cons port ports ih =>
    rw [List.mem_cons, not_or] at h
    rw [Except.mapM_cons_eq_ok]
    exact ⟨port, ports, by rw [parsePort_toString, if_neg (Ne.symm h.1)], ih h.2, rfl⟩

theorem parsePorts_error {ports : List UInt16} (h : 0 ∈ ports)
    : ∃ e, Init.parsePorts (",".intercalate (ports.map toString)) = .error e := by
  rw [parsePorts_print (List.ne_nil_of_mem h)]
  cases hread : ports.mapM fun port => Init.parsePort (toString port) with
  | error e => exact ⟨e, rfl⟩
  | ok ports' =>
    rcases Except.ok_of_mapM hread h with ⟨port, hport⟩
    rw [parsePort_toString, if_pos rfl] at hport
    cases hport

end print

section initCommand

theorem parseArgsFrom_flag {flag value : String} (hflag : '=' ∉ flag.toList)
    {set : String → Init.ParsedArgs → Except String Init.ParsedArgs} (hset : Init.valueFlag flag = some set)
    (argv : List String) (a : Init.ParsedArgs)
    : Init.parseArgsFrom (flag :: value :: argv) a = set value a >>= Init.parseArgsFrom argv := by
  rw [Init.parseArgsFrom, Init.splitFlag, splitOnce_eq_none hflag]
  dsimp only
  rw [hset]
  dsimp only
  cases hvalue : set value a with
  | ok b => rfl
  | error e => rfl

variable (p : InjectParams)

theorem parseArgs_initCommand
    : Init.parseArgs ((initCommand p).drop 2)
        = (Init.parsePorts (ignoreInboundPorts p)).map fun ports => {
          proxyUid := p.proxyUid
          inboundPort := inboundPort
          outboundPort := outboundPort
          ignoreInboundPorts := ports
        } := by
  have huid : Init.parseNum (toString p.proxyUid) "proxy-uid" = .ok p.proxyUid := by
    rw [Init.parseNum, parseU32_toString]
  have hinbound : Init.parsePort (toString inboundPort) = .ok inboundPort := by
    rw [parsePort_toString]
    rfl
  have houtbound : Init.parsePort (toString outboundPort) = .ok outboundPort := by
    rw [parsePort_toString]
    rfl
  unfold initCommand Init.parseArgs
  simp only [List.drop_succ_cons, List.drop_zero]
  rw [parseArgsFrom_flag (by decide) rfl, huid]
  dsimp only [Except.map, bind, Except.bind]
  rw [parseArgsFrom_flag (by decide) rfl, hinbound]
  dsimp only [Except.map, bind, Except.bind]
  rw [parseArgsFrom_flag (by decide) rfl, houtbound]
  dsimp only [Except.map, bind, Except.bind]
  rw [parseArgsFrom_flag (by decide) rfl]
  cases Init.parsePorts (ignoreInboundPorts p) with
  | ok ports => rfl
  | error e => rfl

end initCommand

section agree

/-- What the annotations say, without the parser of `inject`. -/
def UidAnnotated (a : Annotations) (uid : UInt32) : Prop :=
  match a.get "proxy-uid" with
  | some value => parseU32 (trim value) = some uid
  | none => uid = defaultProxyUid

def SkipAnnotated (a : Annotations) (port : UInt16) : Prop :=
  ∃ value, a.get "skip-inbound-ports" = some value
    ∧ ∃ part ∈ splitChar ',' value, parseU16 (trim part) = some port

structure Agrees (a : Annotations) (p : InjectParams) (q : Init.InitParams) : Prop where
  accepted : Init.parseArgs ((initCommand p).drop 2) = .ok q
  uid : UidAnnotated a q.proxyUid
  inbound : listenPort "inbound" (configToml p) = some q.inboundPort
  outbound : listenPort "outbound" (configToml p) = some q.outboundPort
  ignored : ∀ port, port ∈ q.ignoreInboundPorts ↔ SkipAnnotated a port ∨ port = adminPort

variable {debug : String → String} {a : Annotations} {p : InjectParams}
  (h : parseAnnotations debug a = .ok p)

include h

theorem uidAnnotated : UidAnnotated a p.proxyUid := by
  unfold UidAnnotated
  split
  . next value hget =>
    have hread := setBy_proxyUid.of_get_eq_some (parseAnnotations_eq_ok.mp h).1 hget
    unfold parseUid at hread
    split at hread
    . next uid huid =>
      cases hread
      exact huid
    . cases hread
  . next hget => exact setBy_proxyUid.of_get_eq_none (parseAnnotations_eq_ok.mp h).1 hget

theorem logLevel_mem : p.logLevel ∈ logLevels := by
  cases hget : a.get "proxy-log-level" with
  | some value =>
    have hread := setBy_logLevel.of_get_eq_some (parseAnnotations_eq_ok.mp h).1 hget
    unfold parseLogLevel at hread
    split at hread
    . next hmem =>
      rw [Except.ok.injEq] at hread
      exact hread ▸ hmem
    . cases hread
  | none =>
    have hdefault : p.logLevel = defaultLogLevel := setBy_logLevel.of_get_eq_none (parseAnnotations_eq_ok.mp h).1 hget
    rw [hdefault]
    decide

theorem mem_skipInboundPorts (port : UInt16) : port ∈ p.skipInboundPorts ↔ SkipAnnotated a port := by
  unfold SkipAnnotated
  cases hget : a.get "skip-inbound-ports" with
  | some value =>
    rw [mem_parsePorts (setBy_skipInboundPorts.of_get_eq_some (parseAnnotations_eq_ok.mp h).1 hget)]
    simp
  | none =>
    have hdefault : p.skipInboundPorts = [] :=
      setBy_skipInboundPorts.of_get_eq_none (parseAnnotations_eq_ok.mp h).1 hget
    simp [hdefault]

theorem zero_mem_ignoredPorts : 0 ∈ ignoredPorts p ↔ SkipAnnotated a 0 := by
  rw [mem_ignoredPorts, mem_skipInboundPorts h, or_iff_left]
  decide

theorem agrees_iff : (∃ q, Agrees a p q) ↔ ¬ SkipAnnotated a 0 := by
  rw [← zero_mem_ignoredPorts h]
  constructor
  . rintro ⟨q, hq⟩ hzero
    rcases parsePorts_error hzero with ⟨e, he⟩
    have haccepted := hq.accepted
    rw [parseArgs_initCommand, ignoreInboundPorts, he] at haccepted
    cases haccepted
  . intro hzero
    have haccepted : Init.parseArgs ((initCommand p).drop 2) = .ok {
        proxyUid := p.proxyUid
        inboundPort := inboundPort
        outboundPort := outboundPort
        ignoreInboundPorts := ignoredPorts p
      } := by
      rw [parseArgs_initCommand, ignoreInboundPorts, parsePorts_ok (ignoredPorts_ne_nil p) hzero]
      rfl
    refine ⟨_, haccepted, ?uid, ?inbound, ?outbound, ?ignored⟩
    case uid => exact uidAnnotated h
    case inbound => exact listenPort_inbound (logLevel_mem h)
    case outbound => exact listenPort_outbound (logLevel_mem h)
    case ignored =>
      intro port
      rw [← mem_skipInboundPorts h]
      exact mem_ignoredPorts

end agree

def podAnnotations : Annotations where
  entries := [
    ("config.openrusty.io/proxy-uid", " 2102"),
    ("config.openrusty.io/skip-inbound-ports", "9090, 15002,9090"),
    ("prometheus.io/scrape", "true")
  ]
  sorted := by decide

theorem agrees_iff_pod
    : (∃ q, Agrees podAnnotations { skipInboundPorts := [9090, 15002], proxyUid := 2102 } q)
        ↔
      ¬ SkipAnnotated podAnnotations 0 :=
  @agrees_iff id _ _ rfl

theorem agrees_not_zero
    : ∃ (a : Annotations) (p : InjectParams), (∀ debug, parseAnnotations debug a = .ok p)
        ∧ Init.parseArgs ((initCommand p).drop 2) = .error "invalid port '0' (1-65535)"
        ∧ ¬ ∃ q, Agrees a p q := by
  have herror : Init.parseArgs ((initCommand { skipInboundPorts := [0] }).drop 2)
      = .error "invalid port '0' (1-65535)" := by
    rfl
  refine ⟨⟨[("config.openrusty.io/skip-inbound-ports", "0")], by simp⟩, { skipInboundPorts := [0] }, ?_, herror, ?_⟩
  . intro debug
    rfl
  . rintro ⟨q, hq⟩
    have haccepted := hq.accepted
    rw [herror] at haccepted
    cases haccepted

end Inject

end OpenRusty
