import OpenRusty.Server.Transparent.Egress

/-!
This module contains the counters of the intercepted connections. A connection whose protocol detection
fails is not counted at all. Every other one is counted once, when its disposition is known: a connection
that is to be tunnelled to its original destination before the dial, whatever comes of it.
-/

namespace OpenRusty

namespace Transparent

open Detect

inductive Outcome where
  | http
  | tunnel
  | loopRejected
  | noOrigDst
  | egressDirect
  | egressDeny
  | egressGatewayOk
  | egressGatewayFail
  deriving DecidableEq, Repr

def Outcome.label (o : Outcome) : String :=
  match o with
  | .http => "http"
  | .tunnel => "tunnel"
  | .loopRejected => "loop_rejected"
  | .noOrigDst => "no_orig_dst"
  | .egressDirect => "egress_direct"
  | .egressDeny => "egress_deny"
  | .egressGatewayOk => "egress_gateway_ok"
  | .egressGatewayFail => "egress_gateway_fail"

theorem Outcome.label_injective : Function.Injective Outcome.label := by
  intro o o'
  cases o <;> cases o' <;> decide

variable {c : Intercept}

def DetectFailed (es : List Event) : Prop := .readEof ∈ es ∨ .readError ∈ es

def OpaqueVerdict (es : List Event) (sent : Bytes) : Prop :=
  .deadline ∈ es ∨ classify sent = .complete .opaqueBytes

def HttpVerdict (es : List Event) (sent : Bytes) : Prop :=
  .deadline ∉ es ∧ ∃ protocol, protocol ≠ .opaqueBytes ∧ classify sent = .complete protocol

/-- A destination that the loop guard lets through. -/
def Foreign (c : Intercept) (dst : SocketAddr) : Prop := c.origDst = some dst ∧ dst.port ∉ c.ownPorts

def Meaning (c : Intercept) (es : List Event) (s : Conn) (spliced : Option Target) (o : Outcome) : Prop :=
  match o with
  | .http =>
    c.role ≠ .outbound ∧ (∃ mode io, s.phase = .serving mode io)
      ∧ (c.origDst = none ∨ HttpVerdict es s.sent)
  | .tunnel =>
    c.role ≠ .outbound ∧ OpaqueVerdict es s.sent ∧ ∃ dst, Foreign c dst ∧ spliced = some (.original dst)
  | .loopRejected => s.phase = .closed ∧ ∃ dst, c.origDst = some dst ∧ dst.port ∈ c.ownPorts
  | .noOrigDst => c.role = .outbound ∧ s.phase = .closed ∧ c.origDst = none
  | .egressDirect =>
    c.role = .outbound ∧ c.mode = .direct ∧ ∃ dst, Foreign c dst ∧ spliced = some (.original dst)
  | .egressDeny =>
    c.role = .outbound ∧ s.phase = .closed ∧ ∃ dst, Foreign c dst
      ∧ (c.mode = .deny ∨ c.mode = .gateway ∧ (OpaqueVerdict es s.sent ∨ dst.port = 443))
  | .egressGatewayOk => c.role = .outbound ∧ ∃ gateway, s.reached = some (.gateway gateway)
  | .egressGatewayFail =>
    c.role = .outbound ∧ s.phase = .closed ∧ c.mode = .gateway ∧ HttpVerdict es s.sent
      ∧ (∃ dst, Foreign c dst ∧ dst.port ≠ 443) ∧ (c.gateway = none ∨ .dialDone false ∈ es)

section meaning

variable {es : List Event} {e : Event} {s t : Conn} {o : Outcome}

theorem OpaqueVerdict.mono (h : OpaqueVerdict es s.sent) (hsent : s.sent <+: t.sent)
    : OpaqueVerdict (es ++ [e]) t.sent := by
  obtain ⟨rest, hrest⟩ := hsent
  rcases h with htime | hclassify
  . exact .inl (List.mem_append_left _ htime)
  . rw [← hrest]
    exact .inr (classify_append hclassify rest)

theorem HttpVerdict.mono (h : HttpVerdict es s.sent) (hsent : s.sent <+: t.sent) (he : e ≠ .deadline)
    : HttpVerdict (es ++ [e]) t.sent := by
  obtain ⟨rest, hrest⟩ := hsent
  obtain ⟨htime, protocol, hne, hclassify⟩ := h
  refine ⟨?_, protocol, hne, ?_⟩
  . simpa [he.symm] using htime
  . rw [← hrest]
    exact classify_append hclassify rest

theorem Meaning.mono {spliced : Option Target} (h : Meaning c es s spliced o) (he : e ≠ .deadline)
    (hphase : t.phase = s.phase ∨ s.phase ≠ .closed ∧ ∀ mode io, s.phase ≠ .serving mode io)
    (hreached : ∀ target, s.reached = some target → t.reached = some target)
    (hsent : s.sent <+: t.sent)
    : Meaning c (es ++ [e]) t spliced o := by
  cases o with
  | http =>
    obtain ⟨hrole, ⟨mode, io, hserving⟩, hverdict⟩ := h
    rcases hphase with hphase | ⟨-, hnot⟩
    . refine ⟨hrole, ⟨mode, io, hphase.trans hserving⟩, ?_⟩
      exact hverdict.imp_right fun hverdict => hverdict.mono hsent he
    . exact absurd hserving (hnot mode io)
  | tunnel => exact ⟨h.1, h.2.1.mono hsent, h.2.2⟩
  | loopRejected =>
    rcases hphase with hphase | ⟨hnot, -⟩
    . exact ⟨hphase.trans h.1, h.2⟩
    . exact absurd h.1 hnot
  | noOrigDst =>
    rcases hphase with hphase | ⟨hnot, -⟩
    . exact ⟨h.1, hphase.trans h.2.1, h.2.2⟩
    . exact absurd h.2.1 hnot
  | egressDirect => exact h
  | egressDeny =>
    obtain ⟨hrole, hclosed, dst, hdst, hpolicy⟩ := h
    rcases hphase with hphase | ⟨hnot, -⟩
    . refine ⟨hrole, hphase.trans hclosed, dst, hdst, ?_⟩
      exact hpolicy.imp_right fun hgateway =>
        ⟨hgateway.1, hgateway.2.imp_left fun hverdict => hverdict.mono hsent⟩
    . exact absurd hclosed hnot
  | egressGatewayOk =>
    obtain ⟨hrole, gateway, hgateway⟩ := h
    exact ⟨hrole, gateway, hreached _ hgateway⟩
  | egressGatewayFail =>
    obtain ⟨hrole, hclosed, hmode, hverdict, hdst, hfail⟩ := h
    rcases hphase with hphase | ⟨hnot, -⟩
    . refine ⟨hrole, hphase.trans hclosed, hmode, hverdict.mono hsent he, hdst, ?_⟩
      exact hfail.imp_right fun hmem => List.mem_append_left _ hmem
    . exact absurd hclosed hnot

end meaning

/-- Only in gateway mode an outbound connection survives a failed dial in the table. -/
def DialsKept (c : Intercept) (es : List Event) : Prop :=
  .dialDone false ∈ es → c.role = .outbound ∧ c.mode = .gateway

/-- An event that neither ends the detection by force nor fails a dial. -/
def Event.Silent (e : Event) : Prop :=
  e ≠ .readEof ∧ e ≠ .readError ∧ e ≠ .deadline ∧ e ≠ .dialDone false

structure Quiet (es : List Event) : Prop where
  detection : ¬DetectFailed es
  deadline : .deadline ∉ es
  dial : .dialDone false ∉ es

def Recorded (c : Intercept) (s : Conn) (o : Outcome) : Prop := s.recorded = [(c.role.asStr, o.label)]

def Outcome.Spliced (o : Outcome) : Prop := o = .tunnel ∨ o = .egressDirect

def Settled (c : Intercept) (es : List Event) (s : Conn) : Prop :=
  ¬DetectFailed es
    ∧ ∃ o, Recorded c s o ∧ Meaning c es s s.dialled o
      ∧ (DialsKept c es ∧ Meaning c es s s.reached o ∨ ¬DialsKept c es ∧ o.Spliced ∧ s.reached = none)

def Counted (c : Intercept) (es : List Event) (s : Conn) : Prop :=
  match s.phase with
  | .accepted => s.recorded = [] ∧ Quiet es
  | .sniffing _ _ _ => s.recorded = [] ∧ Quiet es
  | .dialling (.original dst) _ =>
    ¬DetectFailed es ∧ .dialDone false ∉ es ∧ (c.role = .outbound → c.mode = .direct)
      ∧ ∃ o, o.Spliced ∧ Recorded c s o ∧ Meaning c es s (some (.original dst)) o
  | .dialling (.gateway _) _ =>
    ¬DetectFailed es ∧ .dialDone false ∉ es ∧ s.recorded = [] ∧ HttpVerdict es s.sent
  | .closed => s.recorded = [] ∧ DetectFailed es ∨ Settled c es s
  | .unreachable => True
  | _ => Settled c es s

section step

variable {es : List Event} {e : Event} {s t : Conn} {o : Outcome} {dst : SocketAddr} {io : Io}

theorem settled_of_meaning (hdetection : ¬DetectFailed es) (hdials : DialsKept c es)
    (hrecorded : Recorded c s o) (h : ∀ spliced, Meaning c es s spliced o)
    : Settled c es s :=
  ⟨hdetection, o, hrecorded, h s.dialled, .inl ⟨hdials, h s.reached⟩⟩

theorem recorded_recordTransparent {role : ListenerRole} (hrecorded : s.recorded = []) (hrole : c.role = role)
    (o : Outcome)
    : Recorded c (s.recordTransparent role o.label) o := by
  unfold Recorded Conn.recordTransparent
  rw [hrecorded, hrole]
  rfl

theorem counted_close (o : Outcome) (hdetection : ¬DetectFailed es) (hdials : DialsKept c es)
    (hrecorded : s.recorded = []) {role : ListenerRole} (hrole : c.role = role)
    (h : ∀ spliced, Meaning c es (s.recordTransparent role o.label).close spliced o)
    : Counted c es (s.recordTransparent role o.label).close :=
  .inr (settled_of_meaning hdetection hdials (recorded_recordTransparent hrecorded hrole o) h)

theorem counted_serve (hdetection : ¬DetectFailed es) (hdials : DialsKept c es) (hrecorded : s.recorded = [])
    (hrole : c.role ≠ .outbound) (hverdict : c.origDst = none ∨ HttpVerdict es s.sent) (mode : ProtoMode) (io : Io)
    : Counted c es ((s.recordTransparent c.role "http").serve mode io) :=
  settled_of_meaning hdetection hdials (recorded_recordTransparent hrecorded rfl .http)
    fun _ => ⟨hrole, ⟨_, _, rfl⟩, hverdict⟩

theorem Quiet.dialsKept (h : Quiet es) : DialsKept c es := fun hmem => absurd hmem h.dial

theorem counted_runOutbound (hrecorded : s.recorded = []) (hquiet : Quiet es) (hdst : Foreign c dst)
    (hrole : c.role = .outbound)
    : Counted c es (runOutbound c dst s) := by
  unfold runOutbound routeEgress
  cases hmode : c.mode with
  | direct =>
    refine ⟨hquiet.detection, hquiet.dial, fun _ => hmode, .egressDirect, .inr rfl, ?_, ?_⟩
    . exact recorded_recordTransparent hrecorded hrole .egressDirect
    . exact ⟨hrole, hmode, dst, hdst, rfl⟩
  | deny =>
    exact counted_close .egressDeny hquiet.detection hquiet.dialsKept hrecorded hrole
      fun _ => ⟨hrole, rfl, dst, hdst, .inl hmode⟩
  | gateway => exact ⟨hrecorded, hquiet⟩

theorem counted_handleConn (hrecorded : s.recorded = []) (hquiet : Quiet es)
    : Counted c es (handleConn c s) := by
  unfold handleConn routePre
  cases horig : c.origDst with
  | none =>
    by_cases hrole : c.role = .outbound
    . rw [if_pos hrole]
      exact counted_close .noOrigDst hquiet.detection hquiet.dialsKept hrecorded rfl
        fun _ => ⟨hrole, rfl, horig⟩
    . rw [if_neg hrole]
      exact counted_serve hquiet.detection hquiet.dialsKept hrecorded hrole (.inl horig) _ _
  | some dst =>
    dsimp only
    by_cases hloop : isLoopback dst c.ownPorts = true
    . rw [if_pos hloop]
      exact counted_close .loopRejected hquiet.detection hquiet.dialsKept hrecorded rfl
        fun _ => ⟨rfl, dst, horig, by simpa [isLoopback] using hloop⟩
    . have hdst : Foreign c dst := ⟨horig, by simpa [isLoopback] using hloop⟩
      rw [if_neg hloop]
      by_cases hrole : c.role = .outbound
      . rw [if_pos hrole]
        exact counted_runOutbound hrecorded hquiet hdst hrole
      . rw [if_neg hrole]
        exact ⟨hrecorded, hquiet⟩

def Verdict (es : List Event) (sent : Bytes) (protocol : Protocol) : Prop :=
  match protocol with
  | .opaqueBytes => OpaqueVerdict es sent
  | .h1 | .h2 => HttpVerdict es sent

theorem counted_inboundDetected (hrecorded : s.recorded = []) (hdetection : ¬DetectFailed es)
    (hdial : .dialDone false ∉ es) (hsniffs : Sniffs c .inbound dst) {protocol : Protocol}
    (hverdict : Verdict es s.sent protocol)
    : Counted c es (inboundDetected c dst protocol io s) := by
  obtain ⟨horig, hport, hrole⟩ := hsniffs
  have hserve (mode : ProtoMode) (h : HttpVerdict es s.sent)
      : Counted c es ((s.recordTransparent c.role "http").serve mode io) := by
    exact counted_serve hdetection (fun hmem => absurd hmem hdial) hrecorded hrole (.inr h) mode io
  cases protocol with
  | h1 => exact hserve _ hverdict
  | h2 => exact hserve _ hverdict
  | opaqueBytes =>
    refine ⟨hdetection, hdial, fun houtbound => absurd houtbound hrole, .tunnel, .inl rfl, ?_, ?_⟩
    . exact recorded_recordTransparent hrecorded rfl .tunnel
    . exact ⟨hrole, hverdict, dst, ⟨horig, hport⟩, rfl⟩

theorem counted_egressDetected (hrecorded : s.recorded = []) (hdetection : ¬DetectFailed es)
    (hdial : .dialDone false ∉ es) (hsniffs : Sniffs c .egress dst) {protocol : Protocol}
    (hverdict : Verdict es s.sent protocol)
    : Counted c es (egressDetected c dst protocol io s) := by
  obtain ⟨horig, hport, hrole, hmode⟩ := hsniffs
  have hdeny (h : OpaqueVerdict es s.sent ∨ dst.port = 443)
      : Counted c es (s.recordTransparent .outbound "egress_deny").close := by
    exact counted_close .egressDeny hdetection (fun hmem => absurd hmem hdial) hrecorded hrole
      fun _ => ⟨hrole, rfl, dst, ⟨horig, hport⟩, .inr ⟨hmode, h⟩⟩
  have hforward (h : HttpVerdict es s.sent) (htls : dst.port ≠ 443)
      : Counted c es (forwardToGateway c io s) := by
    unfold forwardToGateway
    cases hgateway : c.gateway with
    | some gateway => exact ⟨hdetection, hdial, hrecorded, h⟩
    | none =>
      exact counted_close .egressGatewayFail hdetection (fun hmem => absurd hmem hdial) hrecorded hrole
        fun _ => ⟨hrole, rfl, hmode, h, ⟨dst, ⟨horig, hport⟩, htls⟩, .inl hgateway⟩
  unfold egressDetected routeEgress
  rw [hmode]
  cases protocol with
  | opaqueBytes => exact hdeny (.inl hverdict)
  | h1 =>
    by_cases htls : dst.port = 443
    . simp only [htls, if_true]
      exact hdeny (.inr htls)
    . simp only [htls, if_false]
      exact hforward hverdict htls
  | h2 =>
    by_cases htls : dst.port = 443
    . simp only [htls, if_true]
      exact hdeny (.inr htls)
    . simp only [htls, if_false]
      exact hforward hverdict htls

theorem detectFailed_concat (heof : e ≠ .readEof) (herror : e ≠ .readError)
    : DetectFailed (es ++ [e]) ↔ DetectFailed es := by
  unfold DetectFailed
  simp [heof.symm, herror.symm]

theorem dialFailed_concat (he : e ≠ .dialDone false) : .dialDone false ∈ es ++ [e] ↔ .dialDone false ∈ es := by
  simp [he.symm]

theorem dialsKept_concat (he : e ≠ .dialDone false) : DialsKept c (es ++ [e]) ↔ DialsKept c es := by
  unfold DialsKept
  rw [dialFailed_concat he]

theorem Quiet.concat (h : Quiet es) (he : e.Silent) : Quiet (es ++ [e]) where
  detection := by
    rw [detectFailed_concat he.1 he.2.1]
    exact h.detection
  deadline := by simpa [he.2.2.1.symm] using h.deadline
  dial := by
    rw [dialFailed_concat he.2.2.2]
    exact h.dial

def Brings (e : Event) (read : Read) : Prop :=
  match read with
  | .data _ => e.Silent
  | .eof => e = .readEof
  | .error => e = .readError
  | .deadline => e = .deadline

theorem counted_detected {sniffer : Sniffer} {buf : Bytes} {read : Read} (he : Brings e read)
    (hrecorded : s.recorded = []) (hquiet : Quiet es) (hsniffs : Sniffs c sniffer dst)
    (hsent : buf ++ read.bytes ++ s.unread = s.sent)
    : Counted c (es ++ [e]) (detected c sniffer dst (detectStep buf read) s) := by
  have hsettled {protocol : Protocol} {taken : Bytes} (hdetection : ¬DetectFailed (es ++ [e]))
      (hdial : .dialDone false ∉ es ++ [e]) (hverdict : Verdict (es ++ [e]) s.sent protocol)
      : Counted c (es ++ [e]) (detected c sniffer dst (.settled protocol taken) s) := by
    cases sniffer with
    | inbound => exact counted_inboundDetected hrecorded hdetection hdial hsniffs hverdict
    | egress => exact counted_egressDetected hrecorded hdetection hdial hsniffs hverdict
  cases read with
  | data chunk =>
    have hquiet' := hquiet.concat he
    cases hclassify : classify (buf ++ chunk) with
    | incomplete =>
      have hprobe : detectStep buf (.data chunk) = .reading (buf ++ chunk) := by
        simp [detectStep, hclassify]
      rw [hprobe]
      exact ⟨hrecorded, hquiet'⟩
    | complete protocol =>
      have hprobe : detectStep buf (.data chunk) = .settled protocol (buf ++ chunk) := by
        simp [detectStep, hclassify]
      rw [hprobe]
      have hwhole : classify s.sent = .complete protocol := by
        rw [← hsent]
        exact classify_append hclassify s.unread
      apply hsettled hquiet'.detection hquiet'.dial
      cases protocol with
      | opaqueBytes => exact .inr hwhole
      | h1 => exact ⟨hquiet'.deadline, .h1, by simp, hwhole⟩
      | h2 => exact ⟨hquiet'.deadline, .h2, by simp, hwhole⟩
  | eof =>
    cases he
    rw [detectStep_eof]
    exact .inl ⟨hrecorded, .inl (by simp)⟩
  | error =>
    cases he
    exact .inl ⟨hrecorded, .inr (by simp)⟩
  | deadline =>
    cases he
    have hdetection : ¬DetectFailed (es ++ [.deadline]) := by
      have := hquiet.detection
      unfold DetectFailed at this ⊢
      simpa using this
    exact hsettled hdetection (by simpa using hquiet.dial) (.inl (by simp))

theorem counted_read {sniffer : Sniffer} {buf : Bytes} (hphase : s.phase = .sniffing sniffer dst buf)
    (hinv : Inv c s) (h : Counted c es s) {read : Read} {unread : Bytes} (he : Brings e read)
    (hread : read.bytes ++ unread = s.unread)
    : Counted c (es ++ [e]) (detected c sniffer dst (detectStep buf read) { s with unread := unread }) := by
  rw [Inv, hphase] at hinv
  rw [Counted, hphase] at h
  have hrecorded : ({ s with unread := unread } : Conn).recorded = [] := h.1
  apply counted_detected he hrecorded h.2 hinv.2.1
  rw [List.append_assoc]
  dsimp only
  rw [hread, hinv.2.2]

theorem Settled.mono (h : Settled c es s) (he : e.Silent)
    (hphase : t.phase = s.phase ∨ s.phase ≠ .closed ∧ ∀ mode io, s.phase ≠ .serving mode io)
    (hdialled : t.dialled = s.dialled) (hreached : t.reached = s.reached)
    (hrecorded : t.recorded = s.recorded) (hsent : s.sent <+: t.sent)
    : Settled c (es ++ [e]) t := by
  obtain ⟨hdetection, o, ho, hmeaning, hcases⟩ := h
  have hmono {spliced : Option Target} (h : Meaning c es s spliced o) : Meaning c (es ++ [e]) t spliced o :=
    h.mono he.2.2.1 hphase (by simp [hreached]) hsent
  refine ⟨?_, o, hrecorded.trans ho, ?_, ?_⟩
  . rwa [detectFailed_concat he.1 he.2.1]
  . rw [hdialled]
    exact hmono hmeaning
  . rw [dialsKept_concat he.2.2.2, hreached]
    exact hcases.imp_left fun hkept => ⟨hkept.1, hmono hkept.2⟩

theorem counted_sends {bytes : Bytes} (h : Sends s t bytes) (hrecorded : t.recorded = s.recorded)
    (he : e.Silent) (hcounted : Counted c es s)
    : Counted c (es ++ [e]) t := by
  have hsent : s.sent <+: t.sent := ⟨bytes, h.sent.symm⟩
  have hsettled (hs : Settled c es s) : Settled c (es ++ [e]) t :=
    hs.mono he (.inl h.phase) h.dialled h.reached hrecorded hsent
  unfold Counted at hcounted ⊢
  rw [h.phase]
  cases hphase : s.phase with
  | accepted =>
    rw [hphase] at hcounted
    exact ⟨hrecorded.trans hcounted.1, hcounted.2.concat he⟩
  | sniffing sniffer dst buf =>
    rw [hphase] at hcounted
    exact ⟨hrecorded.trans hcounted.1, hcounted.2.concat he⟩
  | dialling target io =>
    rw [hphase] at hcounted
    cases target with
    | original dst =>
      obtain ⟨hdetection, hdial, hmode, o, ho, hrec, hmeaning⟩ := hcounted
      refine ⟨?_, ?_, hmode, o, ho, hrecorded.trans hrec, ?_⟩
      . rwa [detectFailed_concat he.1 he.2.1]
      . rwa [dialFailed_concat he.2.2.2]
      . exact hmeaning.mono he.2.2.1 (.inl h.phase) (by simp [h.reached]) hsent
    | gateway gateway =>
      obtain ⟨hdetection, hdial, hrec, hverdict⟩ := hcounted
      refine ⟨?_, ?_, hrecorded.trans hrec, hverdict.mono hsent he.2.2.1⟩
      . rwa [detectFailed_concat he.1 he.2.1]
      . rwa [dialFailed_concat he.2.2.2]
  | closed =>
    rw [hphase] at hcounted
    rcases hcounted with hfailed | hs
    . left
      rw [detectFailed_concat he.1 he.2.1]
      exact ⟨hrecorded.trans hfailed.1, hfailed.2⟩
    . exact .inr (hsettled hs)
  | unreachable => trivial
  | copying io buf =>
    rw [hphase] at hcounted
    exact hsettled hcounted
  | copied =>
    rw [hphase] at hcounted
    exact hsettled hcounted
  | aborted =>
    rw [hphase] at hcounted
    exact hsettled hcounted
  | serving mode io =>
    rw [hphase] at hcounted
    exact hsettled hcounted

theorem counted_dialDone {target : Target} (hphase : s.phase = .dialling target io) (hinv : Inv c s)
    (h : Counted c es s) (ok : Bool)
    : Counted c (es ++ [.dialDone ok]) (dialDone target io ok s) := by
  rw [Inv, hphase] at hinv
  obtain ⟨hdialled, hreached, -, hallowed, -⟩ := hinv
  rw [Counted, hphase] at h
  have hopen : s.phase ≠ .closed ∧ ∀ mode io, s.phase ≠ .serving mode io := by simp [hphase]
  have hnone : ∀ target', s.reached = some target' → (dialDone target io ok s).reached = some target' := by
    simp [hreached]
  cases target with
  | original dst =>
    obtain ⟨hdetection, hdial, hmode, o, ho, hrecorded, hmeaning⟩ := h
    have hdetection' : ¬DetectFailed (es ++ [.dialDone ok]) := by
      rwa [detectFailed_concat (by simp) (by simp)]
    have hmeaning' := hmeaning.mono (e := .dialDone ok) (by simp) (.inr hopen) hnone
      (t := dialDone (.original dst) io ok s) (by cases ok <;> exact List.prefix_rfl)
    cases ok with
    | true =>
      refine ⟨hdetection', o, hrecorded, ?_, .inl ⟨?_, hmeaning'⟩⟩
      . have hsame : (dialDone (.original dst) io true s).dialled = some (.original dst) := hdialled
        rw [hsame]
        exact hmeaning'
      . rw [dialsKept_concat (by simp)]
        exact fun hmem => absurd hmem hdial
    | false =>
      refine .inr ⟨hdetection', o, hrecorded, ?_, .inr ⟨?_, ho, hreached⟩⟩
      . have hsame : (dialDone (.original dst) io false s).dialled = some (.original dst) := hdialled
        rw [hsame]
        exact hmeaning'
      . intro hkept
        obtain ⟨hrole, hgateway⟩ := hkept (by simp)
        rw [hmode hrole] at hgateway
        cases hgateway
  | gateway gateway =>
    obtain ⟨hdetection, hdial, hrecorded, hverdict⟩ := h
    obtain ⟨hrole, hmode, -, -, dst, horig, htls, hport⟩ := hallowed
    have hdetection' : ¬DetectFailed (es ++ [.dialDone ok]) := by
      rwa [detectFailed_concat (by simp) (by simp)]
    have hkept : DialsKept c (es ++ [.dialDone ok]) := fun _ => ⟨hrole, hmode⟩
    cases ok with
    | true =>
      exact settled_of_meaning hdetection' hkept
        (recorded_recordTransparent hrecorded hrole .egressGatewayOk) fun _ => ⟨hrole, gateway, rfl⟩
    | false =>
      exact counted_close .egressGatewayFail hdetection' hkept hrecorded hrole fun _ =>
        ⟨hrole, rfl, hmode, hverdict.mono (t := s) List.prefix_rfl (by simp), ⟨dst, ⟨horig, hport⟩, htls⟩,
          .inr (by simp)⟩

theorem counted_copy {buf : Bytes} (hphase : s.phase = .copying io buf) (h : Counted c es s) (he : e.Silent)
    (hdialled : t.dialled = s.dialled) (hreached : t.reached = s.reached)
    (hrecorded : t.recorded = s.recorded) (hsent : t.sent = s.sent)
    : Settled c (es ++ [e]) t := by
  rw [Counted, hphase] at h
  have hopen : s.phase ≠ .closed ∧ ∀ mode io, s.phase ≠ .serving mode io := by simp [hphase]
  exact h.mono he (.inr hopen) hdialled hreached hrecorded (by simp [hsent])

theorem counted_step (hinv : Inv c s) (h : Counted c es s) (hstep : step c s e = some t)
    : Counted c (es ++ [e]) t := by
  unfold step at hstep
  split at hstep
  . next bytes =>
    split at hstep
    . cases hstep
    . next hopen =>
      cases hstep
      have hsends : Sends s { s with sent := s.sent ++ bytes, unread := s.unread ++ bytes } bytes :=
        ⟨rfl, rfl, rfl, rfl, rfl, rfl, fun hfinished => absurd hfinished hopen⟩
      exact counted_sends hsends rfl (by simp [Event.Silent]) h
  . cases hstep
    have hsends : Sends s { s with finished := true } [] :=
      ⟨rfl, rfl, rfl, rfl, by simp, by simp, fun _ => ⟨rfl, rfl⟩⟩
    exact counted_sends hsends rfl (by simp [Event.Silent]) h
  . next hphase =>
    cases hstep
    rw [Counted, hphase] at h
    exact counted_handleConn h.1 (h.2.concat (by simp [Event.Silent]))
  . next n sniffer dst buf hphase =>
    split at hstep
    . cases hstep
      exact counted_read hphase hinv h (by simp [Brings, Event.Silent]) (List.take_append_drop n s.unread)
    . cases hstep
  . next sniffer dst buf hphase =>
    split at hstep
    . cases hstep
      exact counted_read hphase hinv h rfl rfl
    . cases hstep
  . next sniffer dst buf hphase =>
    cases hstep
    exact counted_read hphase hinv h rfl rfl
  . next sniffer dst buf hphase =>
    cases hstep
    exact counted_read hphase hinv h rfl rfl
  . next ok target io hphase =>
    cases hstep
    exact counted_dialDone hphase hinv h ok
  . next remaining io buf hphase =>
    dsimp only at hstep
    split at hstep
    . cases hstep
    . cases hstep
      exact counted_copy hphase h (by simp [Event.Silent]) rfl rfl rfl rfl
  . next n io buf hphase =>
    cases hstep
    exact counted_copy hphase h (by simp [Event.Silent]) rfl rfl rfl rfl
  . next io buf hphase =>
    split at hstep
    . cases hstep
      exact counted_copy hphase h (by simp [Event.Silent]) rfl rfl rfl rfl
    . cases hstep
  . next io buf hphase =>
    cases hstep
    exact counted_copy hphase h (by simp [Event.Silent]) rfl rfl rfl rfl
  . cases hstep

theorem counted_of_run (hrun : Machine.run (step c) {} es = some s) : Counted c es s := by
  have hinit : Inv c {} ∧ Counted c [] {} := by
    refine ⟨inv_init, rfl, ?_⟩
    exact ⟨by simp [DetectFailed], by simp, by simp⟩
  have := Machine.inv_of_history (I := fun es s => Inv c s ∧ Counted c es s)
    (fun _ _ _ _ h hstep => ⟨inv_step h.1 hstep, counted_step h.1 h.2 hstep⟩) hinit hrun
  exact this.2

end step

section once

variable {es : List Event} {s : Conn}

def Handled (s : Conn) : Prop :=
  match s.phase with
  | .closed | .copied | .aborted | .serving _ _ => True
  | _ => False

def CountedOnce (c : Intercept) (es : List Event) (s : Conn) (spliced : Option Target) : Prop :=
  ∃ o, Recorded c s o ∧ Meaning c es s spliced o

theorem handled_cases (h : Counted c es s) (hhandled : Handled s)
    : s.recorded = [] ∧ DetectFailed es ∨ Settled c es s := by
  unfold Counted at h
  unfold Handled at hhandled
  cases hphase : s.phase with
  | closed =>
    rw [hphase] at h
    exact h
  | copied =>
    rw [hphase] at h
    exact .inr h
  | aborted =>
    rw [hphase] at h
    exact .inr h
  | serving mode io =>
    rw [hphase] at h
    exact .inr h
  | accepted | sniffing | dialling | copying | unreachable => simp [hphase] at hhandled

theorem recorded_inj {o o' : Outcome} (h : Recorded c s o) (h' : Recorded c s o') : o = o' := by
  unfold Recorded at h h'
  rw [h] at h'
  simp only [List.cons.injEq, Prod.mk.injEq, true_and, and_true] at h'
  exact Outcome.label_injective h'

theorem not_meaning_of_spliced {o : Outcome} (h : o.Spliced) : ¬Meaning c es s none o := by
  rcases h with rfl | rfl
  . rintro ⟨-, -, dst, -, hnone⟩
    cases hnone
  . rintro ⟨-, -, dst, -, hnone⟩
    cases hnone

theorem length_recorded_le (h : Counted c es s) (hinv : Inv c s) : s.recorded.length ≤ 1 := by
  have hsettled (h : Settled c es s) : s.recorded.length ≤ 1 := by
    obtain ⟨-, o, ho, -⟩ := h
    rw [ho]
    simp
  unfold Counted at h
  split at h
  . simp [h.1]
  . simp [h.1]
  . obtain ⟨-, -, -, o, -, ho, -⟩ := h
    rw [ho]
    simp
  . simp [h.2.2.1]
  . rcases h with h | h
    . simp [h.1]
    . exact hsettled h
  . next hphase =>
    rw [Inv, hphase] at hinv
    exact hinv.elim
  . exact hsettled h

theorem counted_once_iff (hrun : Machine.run (step c) {} es = some s)
    : s.recorded.length ≤ 1 ∧ (Handled s →
      (CountedOnce c es s s.dialled ↔ ¬DetectFailed es)
        ∧ (CountedOnce c es s s.reached ↔ ¬DetectFailed es ∧ DialsKept c es)) := by
  have hcounted := counted_of_run hrun
  refine ⟨length_recorded_le hcounted (inv_of_run hrun), ?_⟩
  intro hhandled
  rcases handled_cases hcounted hhandled with ⟨hnone, hfailed⟩ | ⟨hdetection, o, ho, hmeaning, hcases⟩
  . have hnot (spliced : Option Target) : ¬CountedOnce c es s spliced := by
      rintro ⟨o, ho, -⟩
      rw [Recorded, hnone] at ho
      cases ho
    simp [hnot, hfailed]
  . refine ⟨⟨fun _ => hdetection, fun _ => ⟨o, ho, hmeaning⟩⟩, ?_⟩
    rcases hcases with ⟨hkept, hreached⟩ | ⟨hnot, hspliced, hreached⟩
    . exact ⟨fun _ => ⟨hdetection, hkept⟩, fun _ => ⟨o, ho, hreached⟩⟩
    . constructor
      . rintro ⟨o', ho', hmeaning'⟩
        rw [hreached, recorded_inj ho' ho] at hmeaning'
        exact absurd hmeaning' (not_meaning_of_spliced hspliced)
      . intro h
        exact absurd h.2 hnot

theorem counted_once_iff_forwarded
    : Machine.run (step gatewayIntercept) {} forwardedRun = some forwardedConn
      ∧ CountedOnce gatewayIntercept forwardedRun forwardedConn forwardedConn.reached := by
  have hrun : Machine.run (step gatewayIntercept) {} forwardedRun = some forwardedConn := by
    decide +kernel
  have hdetection : ¬(Event.readEof ∈ forwardedRun ∨ .readError ∈ forwardedRun) := by decide
  have hdial : .dialDone false ∉ forwardedRun := by decide
  exact ⟨hrun, ((counted_once_iff hrun).2 trivial).2.mpr ⟨hdetection, fun hmem => absurd hmem hdial⟩⟩

def inboundIntercept : Intercept where
  role := .inbound
  http1Only := false
  origDst := some { ip := .v4 0x0a000007, port := 8080 }
  ownPorts := [4140, 4143, 4191]
  mode := .direct
  gateway := none

theorem closed_early_not_counted
    : ∃ s, Machine.run (step inboundIntercept) {} [.start, .finish, .readEof] = some s ∧ Handled s
      ∧ s.recorded = [] ∧ ∀ spliced, ¬CountedOnce inboundIntercept [.start, .finish, .readEof] s spliced := by
  refine ⟨{ finished := true, phase := .closed }, by decide, trivial, rfl, ?_⟩
  rintro spliced ⟨o, ho, -⟩
  cases ho

end once

end Transparent

end OpenRusty
