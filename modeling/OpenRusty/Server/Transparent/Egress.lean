import OpenRusty.Server.Transparent.Sniff

/-!
This module contains what a connection that is intercepted can reach: whom the handler dials, and that
the dialled target receives the client's bytes from the first one on, in order and without a gap.
-/

namespace OpenRusty

namespace Transparent

open Detect

variable {c : Intercept}

def Allowed (c : Intercept) (sent : Bytes) (target : Target) : Prop :=
  match target with
  | .original addr =>
    c.origDst = some addr ∧ addr.port ∉ c.ownPorts ∧ (c.role = .outbound → c.mode = .direct)
  | .gateway addr =>
    c.role = .outbound ∧ c.mode = .gateway ∧ c.gateway = some addr ∧ IsHttp sent
      ∧ ∃ dst, c.origDst = some dst ∧ dst.port ≠ 443 ∧ dst.port ∉ c.ownPorts

theorem Allowed.append {sent : Bytes} {target : Target} (h : Allowed c sent target) (rest : Bytes)
    : Allowed c (sent ++ rest) target := by
  cases target with
  | original addr => exact h
  | gateway addr =>
    rcases h with ⟨hrole, hmode, hgateway, hhttp, hdst⟩
    exact ⟨hrole, hmode, hgateway, hhttp.append rest, hdst⟩

def Sniffs (c : Intercept) (sniffer : Sniffer) (dst : SocketAddr) : Prop :=
  c.origDst = some dst ∧ dst.port ∉ c.ownPorts
    ∧ match sniffer with
      | .inbound => c.role ≠ .outbound
      | .egress => c.role = .outbound ∧ c.mode = .gateway

structure Held (s : Conn) : Prop where
  dialled : s.dialled = none
  reached : s.reached = none
  delivered : s.delivered = []

structure Reached (c : Intercept) (s : Conn) (target : Target) : Prop where
  dialled : s.dialled = some target
  reached : s.reached = some target
  allowed : Allowed c s.sent target

def Inv (c : Intercept) (s : Conn) : Prop :=
  match s.phase with
  | .accepted => Held s ∧ s.unread = s.sent
  | .sniffing sniffer dst buf => Held s ∧ Sniffs c sniffer dst ∧ buf ++ s.unread = s.sent
  | .dialling target io =>
    s.dialled = some target ∧ s.reached = none ∧ s.delivered = [] ∧ Allowed c s.sent target
      ∧ io.head ++ s.unread = s.sent
  | .copying io buf =>
    (∃ target, Reached c s target) ∧ s.delivered ++ (buf ++ (io.head ++ s.unread)) = s.sent
  | .copied => (∃ target, Reached c s target) ∧ s.finished = true ∧ s.delivered = s.sent
  | .aborted => (∃ target, Reached c s target) ∧ s.delivered <+: s.sent
  | .serving _ _ => Held s ∧ c.role ≠ .outbound
  | .closed =>
    s.reached = none ∧ s.delivered = [] ∧ ∀ target, s.dialled = some target → Allowed c s.sent target
  | .unreachable => False

section handle

variable {s : Conn} {dst : SocketAddr} {io : Io}

theorem Held.recordTransparent (h : Held s) (role : ListenerRole) (outcome : String)
    : Held (s.recordTransparent role outcome) where
  dialled := h.dialled
  reached := h.reached
  delivered := h.delivered

theorem inv_close (h : Held s) : Inv c s.close := by
  refine ⟨h.reached, h.delivered, ?_⟩
  intro target htarget
  rw [Conn.close, h.dialled] at htarget
  cases htarget

theorem inv_dial (h : Held s) {target : Target} (hallowed : Allowed c s.sent target)
    (hsent : io.head ++ s.unread = s.sent)
    : Inv c (s.dial target io) :=
  ⟨rfl, h.reached, h.delivered, hallowed, hsent⟩

theorem inv_serve (h : Held s) (mode : ProtoMode) (hrole : c.role ≠ .outbound) : Inv c (s.serve mode io) :=
  ⟨⟨h.dialled, h.reached, h.delivered⟩, hrole⟩

theorem inv_runOutbound (h : Held s) (hsent : s.unread = s.sent) (horig : c.origDst = some dst)
    (hport : dst.port ∉ c.ownPorts) (hrole : c.role = .outbound)
    : Inv c (runOutbound c dst s) := by
  unfold runOutbound routeEgress
  cases hmode : c.mode with
  | direct => exact inv_dial (h.recordTransparent _ _) ⟨horig, hport, fun _ => hmode⟩ hsent
  | deny => exact inv_close (h.recordTransparent _ _)
  | gateway => exact ⟨⟨h.dialled, h.reached, h.delivered⟩, ⟨horig, hport, hrole, hmode⟩, hsent⟩

theorem inv_forwardToGateway (h : Held s) (hsent : io.head ++ s.unread = s.sent)
    (hallowed : ∀ gateway, c.gateway = some gateway → Allowed c s.sent (.gateway gateway))
    : Inv c (forwardToGateway c io s) := by
  unfold forwardToGateway
  cases hgateway : c.gateway with
  | some gateway => exact inv_dial h (hallowed gateway hgateway) hsent
  | none => exact inv_close (h.recordTransparent _ _)

theorem inv_egressDetected (h : Held s) (hsniffs : Sniffs c .egress dst) {protocol : Protocol}
    (hhttp : protocol ≠ .opaqueBytes → IsHttp s.sent) (hsent : io.head ++ s.unread = s.sent)
    : Inv c (egressDetected c dst protocol io s) := by
  rcases hsniffs with ⟨horig, hport, hrole, hmode⟩
  have hgateway : protocol ≠ .opaqueBytes → dst.port ≠ 443 → Inv c (forwardToGateway c io s) := by
    intro hne htls
    apply inv_forwardToGateway h hsent
    intro gateway hgateway
    exact ⟨hrole, hmode, hgateway, hhttp hne, dst, horig, htls, hport⟩
  unfold egressDetected routeEgress
  rw [hmode]
  cases protocol with
  | opaqueBytes => exact inv_close (h.recordTransparent _ _)
  | h1 =>
    by_cases htls : dst.port = 443
    . simp only [htls, if_true]
      exact inv_close (h.recordTransparent _ _)
    . simp only [htls, if_false]
      exact hgateway (by simp) htls
  | h2 =>
    by_cases htls : dst.port = 443
    . simp only [htls, if_true]
      exact inv_close (h.recordTransparent _ _)
    . simp only [htls, if_false]
      exact hgateway (by simp) htls

theorem inv_inboundDetected (h : Held s) (hsniffs : Sniffs c .inbound dst) (protocol : Protocol)
    (hsent : io.head ++ s.unread = s.sent)
    : Inv c (inboundDetected c dst protocol io s) := by
  rcases hsniffs with ⟨horig, hport, hrole⟩
  unfold inboundDetected routeHttp
  cases protocol with
  | h1 => exact inv_serve (h.recordTransparent _ _) _ hrole
  | h2 => exact inv_serve (h.recordTransparent _ _) _ hrole
  | opaqueBytes =>
    apply inv_dial (h.recordTransparent _ _) _ hsent
    exact ⟨horig, hport, fun houtbound => absurd houtbound hrole⟩

theorem inv_handleConn (h : Held s) (hsent : s.unread = s.sent) : Inv c (handleConn c s) := by
  unfold handleConn routePre
  cases horig : c.origDst with
  | none =>
    by_cases hrole : c.role = .outbound
    . simp only [hrole, if_true]
      exact inv_close (h.recordTransparent _ _)
    . simp only [hrole, if_false]
      exact inv_serve (h.recordTransparent _ _) _ hrole
  | some dst =>
    by_cases hloop : isLoopback dst c.ownPorts = true
    . simp only [hloop, if_true]
      exact inv_close (h.recordTransparent _ _)
    . have hport : dst.port ∉ c.ownPorts := by simpa [isLoopback] using hloop
      by_cases hrole : c.role = .outbound
      . simp only [hloop, hrole, if_true, Bool.false_eq_true, if_false]
        exact inv_runOutbound h hsent horig hport hrole
      . simp only [hloop, hrole, Bool.false_eq_true, if_false]
        exact ⟨⟨h.dialled, h.reached, h.delivered⟩, ⟨horig, hport, hrole⟩, hsent⟩

theorem inv_detected (h : Held s) {sniffer : Sniffer} (hsniffs : Sniffs c sniffer dst) {buf : Bytes} {read : Read}
    (hsent : buf ++ read.bytes ++ s.unread = s.sent)
    : Inv c (detected c sniffer dst (detectStep buf read) s) := by
  rcases detectStep_cases buf read with hprobe | ⟨protocol, hprobe⟩ | ⟨e, hprobe⟩
  . rw [hprobe]
    exact ⟨⟨h.dialled, h.reached, h.delivered⟩, hsniffs, hsent⟩
  . have hhead : (Io.prefixed (buf ++ read.bytes) 0).head ++ s.unread = s.sent := by
      rw [head_prefixed_zero, hsent]
    rw [hprobe]
    cases sniffer with
    | inbound => exact inv_inboundDetected h hsniffs protocol hhead
    | egress =>
      apply inv_egressDetected h hsniffs _ hhead
      intro hne
      rw [← hsent]
      exact (isHttp_of_settled hprobe hne).append _
  . rw [hprobe]
    exact inv_close h

theorem inv_dialDone {target : Target} (hphase : s.phase = .dialling target io) (h : Inv c s) (ok : Bool)
    : Inv c (dialDone target io ok s) := by
  rw [Inv, hphase] at h
  rcases h with ⟨hdialled, hreached, hdelivered, hallowed, hsent⟩
  have hcopying : s.delivered ++ ([] ++ (io.head ++ s.unread)) = s.sent := by
    rw [hdelivered, List.nil_append, List.nil_append, hsent]
  have hclosed : ∀ target', s.dialled = some target' → Allowed c s.sent target' := by
    intro target' htarget'
    rw [hdialled] at htarget'
    cases htarget'
    exact hallowed
  unfold dialDone
  cases target with
  | original addr =>
    cases ok with
    | true => exact ⟨⟨_, hdialled, rfl, hallowed⟩, hcopying⟩
    | false => exact ⟨hreached, hdelivered, hclosed⟩
  | gateway addr =>
    cases ok with
    | true => exact ⟨⟨_, hdialled, rfl, hallowed⟩, hcopying⟩
    | false => exact ⟨hreached, hdelivered, hclosed⟩

structure Sends (s s' : Conn) (bytes : Bytes) : Prop where
  phase : s'.phase = s.phase
  dialled : s'.dialled = s.dialled
  reached : s'.reached = s.reached
  delivered : s'.delivered = s.delivered
  sent : s'.sent = s.sent ++ bytes
  unread : s'.unread = s.unread ++ bytes
  finished : s.finished = true → s'.finished = true ∧ bytes = []

section sends

variable {s' : Conn} {bytes : Bytes} (h : Sends s s' bytes)

include h

theorem Sends.held (hheld : Held s) : Held s' where
  dialled := h.dialled.trans hheld.dialled
  reached := h.reached.trans hheld.reached
  delivered := h.delivered.trans hheld.delivered

theorem Sends.target {target : Target} (htarget : Reached c s target) : Reached c s' target where
  dialled := h.dialled.trans htarget.dialled
  reached := h.reached.trans htarget.reached
  allowed := by
    rw [h.sent]
    exact htarget.allowed.append bytes

theorem inv_sends (hinv : Inv c s) : Inv c s' := by
  unfold Inv at hinv ⊢
  rw [h.phase]
  cases hphase : s.phase with
  | accepted =>
    rw [hphase] at hinv
    exact ⟨h.held hinv.1, by rw [h.unread, h.sent, hinv.2]⟩
  | sniffing sniffer dst buf =>
    rw [hphase] at hinv
    exact ⟨h.held hinv.1, hinv.2.1, by rw [h.unread, h.sent, ← hinv.2.2, List.append_assoc]⟩
  | dialling target io =>
    rw [hphase] at hinv
    rcases hinv with ⟨hdialled, hreached, hdelivered, hallowed, hsent⟩
    refine ⟨h.dialled.trans hdialled, h.reached.trans hreached, h.delivered.trans hdelivered, ?_, ?_⟩
    . rw [h.sent]
      exact hallowed.append bytes
    . rw [h.unread, h.sent, ← hsent, List.append_assoc]
  | copying io buf =>
    rw [hphase] at hinv
    rcases hinv with ⟨⟨target, htarget⟩, hsent⟩
    refine ⟨⟨target, h.target htarget⟩, ?_⟩
    rw [h.delivered, h.unread, h.sent, ← hsent]
    simp only [List.append_assoc]
  | copied =>
    rw [hphase] at hinv
    rcases hinv with ⟨⟨target, htarget⟩, hfinished, hsent⟩
    have hbytes := h.finished hfinished
    exact ⟨⟨target, h.target htarget⟩, hbytes.1, by rw [h.delivered, h.sent, hbytes.2, List.append_nil, hsent]⟩
  | aborted =>
    rw [hphase] at hinv
    rcases hinv with ⟨⟨target, htarget⟩, hsent⟩
    refine ⟨⟨target, h.target htarget⟩, ?_⟩
    rw [h.delivered, h.sent]
    exact hsent.trans (List.prefix_append _ _)
  | serving mode io =>
    rw [hphase] at hinv
    exact ⟨h.held hinv.1, hinv.2⟩
  | closed =>
    rw [hphase] at hinv
    rcases hinv with ⟨hreached, hdelivered, hallowed⟩
    refine ⟨h.reached.trans hreached, h.delivered.trans hdelivered, ?_⟩
    intro target htarget
    rw [h.dialled] at htarget
    rw [h.sent]
    exact (hallowed target htarget).append bytes
  | unreachable =>
    rw [hphase] at hinv
    exact hinv

end sends

end handle

theorem inv_read {s : Conn} {sniffer : Sniffer} {dst : SocketAddr} {buf : Bytes}
    (hphase : s.phase = .sniffing sniffer dst buf) (h : Inv c s) {read : Read} {unread : Bytes}
    (hread : read.bytes ++ unread = s.unread)
    : Inv c (detected c sniffer dst (detectStep buf read) { s with unread := unread }) := by
  rw [Inv, hphase] at h
  rcases h with ⟨hheld, hsniffs, hsent⟩
  have hheld' : Held { s with unread := unread } := ⟨hheld.dialled, hheld.reached, hheld.delivered⟩
  apply inv_detected hheld' hsniffs
  rw [List.append_assoc]
  dsimp only
  rw [hread, hsent]

section copy

variable {s : Conn} {io : Io} {buf : Bytes}

theorem inv_copyRead (hphase : s.phase = .copying io buf) (h : Inv c s) {remaining : Nat} {chunk unread : Bytes}
    {io' : Io} (hread : io.pollRead remaining s.unread = (chunk, io', unread))
    : Inv c { s with phase := .copying io' (buf ++ chunk), unread := unread } := by
  rw [Inv, hphase] at h
  rcases h with ⟨⟨target, htarget⟩, hsent⟩
  refine ⟨⟨target, htarget.dialled, htarget.reached, htarget.allowed⟩, ?_⟩
  rw [List.append_assoc, pollRead_eq hread, hsent]

theorem inv_copyWrite (hphase : s.phase = .copying io buf) (h : Inv c s) (n : Nat)
    : Inv c { s with phase := .copying io (buf.drop n), delivered := s.delivered ++ buf.take n } := by
  rw [Inv, hphase] at h
  rcases h with ⟨⟨target, htarget⟩, hsent⟩
  refine ⟨⟨target, htarget.dialled, htarget.reached, htarget.allowed⟩, ?_⟩
  dsimp only
  rw [← hsent, List.append_assoc, ← List.append_assoc (buf.take n), List.take_append_drop]

theorem inv_copyEof (hphase : s.phase = .copying io buf) (h : Inv c s) (hfinished : s.finished = true)
    (hunread : s.unread = []) (hhead : io.head = []) (hbuf : buf = [])
    : Inv c { s with phase := .copied } := by
  rw [Inv, hphase] at h
  rcases h with ⟨⟨target, htarget⟩, hsent⟩
  rw [hunread, hhead, hbuf, List.append_nil, List.append_nil, List.append_nil] at hsent
  exact ⟨⟨target, htarget.dialled, htarget.reached, htarget.allowed⟩, hfinished, hsent⟩

theorem inv_copyError (hphase : s.phase = .copying io buf) (h : Inv c s) : Inv c { s with phase := .aborted } := by
  rw [Inv, hphase] at h
  rcases h with ⟨⟨target, htarget⟩, hsent⟩
  exact ⟨⟨target, htarget.dialled, htarget.reached, htarget.allowed⟩, ⟨_, hsent⟩⟩

end copy

section run

variable {s t : Conn}

theorem inv_init : Inv c {} :=
  ⟨⟨rfl, rfl, rfl⟩, rfl⟩

theorem inv_step {e : Event} (h : Inv c s) (hstep : step c s e = some t) : Inv c t := by
  unfold step at hstep
  split at hstep
  . next bytes =>
    split at hstep
    . cases hstep
    . next hopen =>
      cases hstep
      have hsends : Sends s { s with sent := s.sent ++ bytes, unread := s.unread ++ bytes } bytes :=
        ⟨rfl, rfl, rfl, rfl, rfl, rfl, fun hfinished => absurd hfinished hopen⟩
      exact inv_sends hsends h
  . cases hstep
    have hsends : Sends s { s with finished := true } [] :=
      ⟨rfl, rfl, rfl, rfl, by simp, by simp, fun _ => ⟨rfl, rfl⟩⟩
    exact inv_sends hsends h
  . next hphase =>
    cases hstep
    rw [Inv, hphase] at h
    exact inv_handleConn h.1 h.2
  . next n sniffer dst buf hphase =>
    split at hstep
    . cases hstep
      exact inv_read hphase h (List.take_append_drop n s.unread)
    . cases hstep
  . next sniffer dst buf hphase =>
    split at hstep
    . cases hstep
      exact inv_read hphase h rfl
    . cases hstep
  . next sniffer dst buf hphase =>
    cases hstep
    exact inv_read hphase h rfl
  . next sniffer dst buf hphase =>
    cases hstep
    exact inv_read hphase h rfl
  . next ok target io hphase =>
    cases hstep
    exact inv_dialDone hphase h ok
  . next remaining io buf hphase =>
    rcases hread : io.pollRead remaining s.unread with ⟨chunk, io', unread⟩
    rw [hread] at hstep
    dsimp only at hstep
    split at hstep
    . cases hstep
    . cases hstep
      exact inv_copyRead hphase h hread
  . next n io buf hphase =>
    cases hstep
    exact inv_copyWrite hphase h n
  . next io buf hphase =>
    split at hstep
    . next hdone =>
      cases hstep
      exact inv_copyEof hphase h hdone.1 hdone.2.1 hdone.2.2.1 hdone.2.2.2
    . cases hstep
  . next io buf hphase =>
    cases hstep
    exact inv_copyError hphase h
  . cases hstep

theorem inv_of_run {es : List Event} (hrun : Machine.run (step c) {} es = some s) : Inv c s :=
  Machine.inv_of_run_all (fun _ _ _ h hstep => inv_step h hstep) inv_init hrun

theorem exists_pollRead {io : Io} {inner : Bytes} (h : io.head ++ inner ≠ [])
    : ∃ byte io' inner', io.pollRead 1 inner = ([byte], io', inner') := by
  cases io with
  | plain =>
    cases inner with
    | nil => exact absurd rfl h
    | cons byte inner => exact ⟨byte, _, inner, rfl⟩
  | prefixed head pos =>
    unfold Io.pollRead
    dsimp only
    split
    . next hpos =>
      have hmin : min 1 (head.length - pos) = 1 := by omega
      rw [hmin, List.drop_eq_getElem_cons hpos]
      exact ⟨_, _, _, rfl⟩
    . next hpos =>
      have hdrop : head.drop pos = [] := List.drop_eq_nil_of_le (Nat.le_of_not_lt hpos)
      cases inner with
      | nil => exact absurd (by rw [Io.head, hdrop, List.append_nil]) h
      | cons byte inner => exact ⟨byte, _, inner, rfl⟩

theorem copies (n : Nat) {io : Io} {buf : Bytes} (hphase : s.phase = .copying io buf) (hfinished : s.finished = true)
    (hn : (io.head ++ s.unread).length = n)
    : ∃ es t, Machine.run (step c) s es = some t ∧ t.phase = .copied ∧ t.sent = s.sent := by
  induction n generalizing s io buf with
  | zero =>
    have hempty := List.append_eq_nil_iff.mp (List.eq_nil_of_length_eq_zero hn)
    let written : Conn := { s with phase := .copying io [], delivered := s.delivered ++ buf }
    have hwrite : step c s (.copyWrite buf.length) = some written := by
      simp [step, hphase, written]
    have heof : step c written .copyEof = some { written with phase := .copied } := by
      simp [step, written, hfinished, hempty.1, hempty.2]
    refine ⟨[.copyWrite buf.length, .copyEof], { written with phase := .copied }, ?_, rfl, rfl⟩
    rw [Machine.run_of_step (step c) hwrite, Machine.run_of_step (step c) heof, Machine.run_nil]
  | succ n ih =>
    have hne : io.head ++ s.unread ≠ [] := by
      intro hempty
      rw [hempty] at hn
      cases hn
    rcases exists_pollRead hne with ⟨byte, io', unread', hread⟩
    have hstep : step c s (.copyRead 1)
        = some { s with phase := .copying io' (buf ++ [byte]), unread := unread' } := by
      simp [step, hphase, hread]
    have hlength : (io'.head ++ unread').length = n := by
      have hlist := congrArg List.length (pollRead_eq hread)
      rw [hn, List.length_append, List.length_singleton] at hlist
      omega
    rcases ih (s := { s with phase := .copying io' (buf ++ [byte]), unread := unread' }) rfl hfinished hlength with
      ⟨es, t, hrun, hcopied, hsent⟩
    exact ⟨.copyRead 1 :: es, t, by rw [Machine.run_of_step (step c) hstep, hrun], hcopied, hsent⟩

theorem dialled_cases (h : Inv c s)
    : Held s
        ∨
      (∃ target, s.dialled = some target ∧ s.reached = none ∧ s.delivered = [] ∧ Allowed c s.sent target)
        ∨
      ∃ target, Reached c s target := by
  unfold Inv at h
  split at h
  . exact .inl h.1
  . exact .inl h.1
  . next target io _ => exact .inr (.inl ⟨target, h.1, h.2.1, h.2.2.1, h.2.2.2.1⟩)
  . exact .inr (.inr h.1)
  . exact .inr (.inr h.1)
  . exact .inr (.inr h.1)
  . exact .inl h.1
  . rcases h with ⟨hreached, hdelivered, hallowed⟩
    cases hdialled : s.dialled with
    | none => exact .inl ⟨hdialled, hreached, hdelivered⟩
    | some target => exact .inr (.inl ⟨target, rfl, hreached, hdelivered, hallowed target hdialled⟩)
  . exact h.elim

theorem allowed_of_dialled (h : Inv c s) {target : Target} (hdialled : s.dialled = some target)
    : Allowed c s.sent target := by
  rcases dialled_cases h with hheld | ⟨target', htarget, -, -, hallowed⟩ | ⟨target', htarget⟩
  . rw [hheld.dialled] at hdialled
    cases hdialled
  . rw [htarget] at hdialled
    cases hdialled
    exact hallowed
  . rw [htarget.dialled] at hdialled
    cases hdialled
    exact htarget.allowed

theorem delivered_prefix (h : Inv c s) : s.delivered <+: s.sent := by
  unfold Inv at h
  split at h
  . rw [h.1.delivered]
    exact List.nil_prefix
  . rw [h.1.delivered]
    exact List.nil_prefix
  . rw [h.2.2.1]
    exact List.nil_prefix
  . exact ⟨_, h.2⟩
  . simp [h.2.2]
  . exact h.2
  . rw [h.1.delivered]
    exact List.nil_prefix
  . rw [h.2.1]
    exact List.nil_prefix
  . exact h.elim

structure FailsClosed (c : Intercept) (s : Conn) : Prop where
  original : ∀ addr, s.dialled = some (.original addr) →
    c.origDst = some addr ∧ addr.port ∉ c.ownPorts ∧ (c.role = .outbound → c.mode = .direct)
  gateway : ∀ addr, s.dialled = some (.gateway addr) →
    c.role = .outbound ∧ c.mode = .gateway ∧ c.gateway = some addr ∧ IsHttp s.sent
      ∧ ∃ dst, c.origDst = some dst ∧ dst.port ≠ 443 ∧ dst.port ∉ c.ownPorts
  denied : c.role = .outbound → c.mode = .deny → s.dialled = none
  not_served : c.role = .outbound → ∀ mode io, s.phase ≠ .serving mode io
  reached : ∀ target, s.reached = some target → s.dialled = some target
  not_reached : s.reached = none → s.delivered = []
  closed : s.phase = .closed → s.reached = none
  reachable : s.phase ≠ .unreachable
  delivered : s.delivered <+: s.sent
  copied : s.phase = .copied → s.delivered = s.sent
  -- What is not delivered yet is held in order, and can be delivered.
  copying : ∀ io buf, s.phase = .copying io buf →
    s.delivered ++ (buf ++ (io.head ++ s.unread)) = s.sent
      ∧ (s.finished = true →
          ∃ es t, Machine.run (step c) s es = some t ∧ t.phase = .copied ∧ t.delivered = s.sent)

theorem egress_fails_closed {es : List Event} (hrun : Machine.run (step c) {} es = some s) : FailsClosed c s := by
  have h : Inv c s := inv_of_run hrun
  constructor
  case original =>
    intro addr hdialled
    exact allowed_of_dialled h hdialled
  case gateway =>
    intro addr hdialled
    exact allowed_of_dialled h hdialled
  case denied =>
    intro hrole hdeny
    cases hdialled : s.dialled with
    | none => rfl
    | some target =>
      have hallowed := allowed_of_dialled h hdialled
      cases target with
      | original addr =>
        have hdirect := hallowed.2.2 hrole
        rw [hdeny] at hdirect
        cases hdirect
      | gateway addr =>
        have hgateway := hallowed.2.1
        rw [hdeny] at hgateway
        cases hgateway
  case not_served =>
    intro hrole mode io hphase
    rw [Inv, hphase] at h
    exact h.2 hrole
  case reached =>
    intro target hreached
    rcases dialled_cases h with hheld | ⟨target', -, hnone, -⟩ | ⟨target', htarget⟩
    . rw [hheld.reached] at hreached
      cases hreached
    . rw [hnone] at hreached
      cases hreached
    . rw [htarget.reached] at hreached
      cases hreached
      exact htarget.dialled
  case not_reached =>
    intro hnone
    rcases dialled_cases h with hheld | ⟨target, -, -, hdelivered, -⟩ | ⟨target, htarget⟩
    . exact hheld.delivered
    . exact hdelivered
    . rw [htarget.reached] at hnone
      cases hnone
  case closed =>
    intro hphase
    rw [Inv, hphase] at h
    exact h.1
  case reachable =>
    intro hphase
    rw [Inv, hphase] at h
    exact h
  case delivered => exact delivered_prefix h
  case copied =>
    intro hphase
    rw [Inv, hphase] at h
    exact h.2.2
  -- Both directions go on until the streams end, and by then all is delivered.
  case copying =>
    intro io buf hphase
    refine ⟨?_, ?_⟩
    . rw [Inv, hphase] at h
      exact h.2
    . intro hfinished
      rcases copies _ hphase hfinished rfl with ⟨es', t, hrun', hcopied, hsent⟩
      have ht : Inv c t := Machine.inv_of_run_all (fun _ _ _ h hstep => inv_step h hstep) h hrun'
      rw [Inv, hcopied] at ht
      exact ⟨es', t, hrun', hcopied, by rw [ht.2.2, hsent]⟩

def gatewayIntercept : Intercept where
  role := .outbound
  http1Only := false
  origDst := some { ip := .v4 0x0a000007, port := 8080 }
  ownPorts := [4140, 4143, 4191]
  mode := .gateway
  gateway := some { ip := .v4 0x0a0000fe, port := 4140 }

def forwardedRun : List Event := [
  .start,
  .send (asciiBytes "GE"),
  .read 2,
  .send (asciiBytes "T / HTTP/1.1"),
  .finish,
  .read 4,
  .dialDone true,
  .copyRead 8192,
  .copyRead 8192,
  .copyWrite 14,
  .copyEof
]

def forwardedConn : Conn where
  sent := asciiBytes "GET / HTTP/1.1"
  finished := true
  phase := .copied
  dialled := gatewayIntercept.gateway.map .gateway
  reached := gatewayIntercept.gateway.map .gateway
  delivered := asciiBytes "GET / HTTP/1.1"
  recorded := [("outbound", "egress_gateway_ok")]

theorem egress_fails_closed_forwarded
    : Machine.run (step gatewayIntercept) {} forwardedRun = some forwardedConn
        ∧ FailsClosed gatewayIntercept forwardedConn := by
  have hrun : Machine.run (step gatewayIntercept) {} forwardedRun = some forwardedConn := by
    decide +kernel
  exact ⟨hrun, egress_fails_closed hrun⟩

end run

end Transparent

end OpenRusty
