import OpenRusty.Lib.Join
import OpenRusty.Server.Handshake

/-!
This module contains the comparison of the handshake of a WebSocket request with the request that the
proxy path would send. The two pass on headers by the same rules, but the handshake is made from the
request of the client: it carries what the plugins decided exactly if they have changed nothing of what
is passed on.
-/

namespace OpenRusty

variable (syn : HttpSyntax)

def SentAlike (sent forwarded : Outgoing) : Prop :=
  sent.method = forwarded.method ∧ sent.uri = forwarded.uri
    ∧ ∀ name, name ≠ "connection" → name ≠ "upgrade" →
        sent.headers.getAll name = forwarded.headers.getAll name

def CarriesRewrites (sent : Option Outgoing) (forwarded : Except ForwardError Outgoing) : Prop :=
  ∀ out, sent = some out → ∃ out', forwarded = .ok out' ∧ SentAlike out out'

def endToEnd (headers : List (String × String)) : HeaderMap :=
  .ofPairs syn (headers.filter fun h => isForwarded h.1)

def forwardedFor (headers : List (String × String)) (clientIp : String) : Option String :=
  let xff := mergeXff headers clientIp
  if syn.headerValue xff then some xff else none

def sentValues (headers : List (String × String)) (host clientIp name : String) : List String :=
  if name = "host" then
    [host]
  else if name = "x-forwarded-for" then
    (forwardedFor syn headers clientIp).toList
  else
    (endToEnd syn headers).getAll name

variable {syn}

theorem isHopByHop_of_lowercase {name : String} (h : toAsciiLowercase name ∈ hopByHop)
    : isHopByHop name = true := by
  have hplain : hopByHop.all (fun n =>
      (n.toList.all fun c => !isWhiteSpace c) && toAsciiLowercase n == n) = true := by
    decide
  have hname := List.all_eq_true.mp hplain _ h
  rw [Bool.and_eq_true, List.all_eq_true, beq_iff_eq] at hname
  rcases hname with ⟨hvisible, hlower⟩
  have hspace : ∀ c ∈ (toAsciiLowercase name).toList, isWhiteSpace c = false := by
    intro c hc
    simpa using hvisible c hc
  unfold isHopByHop
  rw [trim_eq_self_of_lowercase hspace, List.any_eq_true]
  refine ⟨_, h, ?_⟩
  rw [eqIgnoreAsciiCase_iff]
  assumption

theorem getAll_endToEnd_eq_nil {headers : List (String × String)} {name : String}
    (h : ∀ n, toAsciiLowercase n = name → isForwarded n = false)
    : (endToEnd syn headers).getAll name = [] := by
  apply HeaderMap.getAll_ofPairs_eq_nil
  intro p hp heq
  have hforwarded := (List.mem_filter.mp hp).2
  rw [h p.1 heq] at hforwarded
  cases hforwarded

theorem getAll_endToEnd_hopByHop (headers : List (String × String)) {name : String}
    (h : name ∈ hopByHop)
    : (endToEnd syn headers).getAll name = [] := by
  apply getAll_endToEnd_eq_nil
  intro n hn
  have : isHopByHop n = true := by
    apply isHopByHop_of_lowercase
    rw [hn]
    assumption
  simp [isForwarded, this]

theorem getAll_endToEnd_own (syn : HttpSyntax) (headers : List (String × String)) {name : String}
    (h : name = "host" ∨ name = "x-forwarded-for")
    : (endToEnd syn headers).getAll name = [] := by
  apply getAll_endToEnd_eq_nil
  intro n hn
  have hlower : toAsciiLowercase name = name := by
    rcases h with rfl | rfl
    . decide
    . decide
  have heq : eqIgnoreAsciiCase n name = true := by
    rw [eqIgnoreAsciiCase_iff, hn, hlower]
  rcases h with rfl | rfl
  . simp [isForwarded, heq]
  . simp [isForwarded, heq]

theorem forwardPeer_eq_ok_iff {tls : Option String} {peer : SocketAddr}
    (hpeer : syn.headerValue peer.toString) {req : ForwardRequest}
    : (∃ out, forwardPeer syn tls peer req = .ok out)
        ↔
      syn.uri (peerTarget tls peer ++ req.pathAndQuery) = true := by
  have hbuild (scheme uriAuthority : String)
      : (∃ out, buildOutgoing syn scheme uriAuthority peer.toString req = .ok out)
          ↔
        syn.uri (scheme ++ "://" ++ uriAuthority ++ req.pathAndQuery) = true := by
    unfold buildOutgoing
    dsimp only
    rw [if_pos hpeer]
    split
    . next huri => simp [huri]
    . next huri => simp [huri]
  cases tls with
  | some serverName => apply hbuild
  | none => apply hbuild

theorem getAll_of_buildOutgoing {scheme uriAuthority host : String} {req : ForwardRequest}
    {out : Outgoing} (h : buildOutgoing syn scheme uriAuthority host req = .ok out) (name : String)
    : out.headers.getAll name = sentValues syn req.headers host req.clientIp name := by
  unfold buildOutgoing at h
  dsimp only at h
  split at h
  . split at h
    . cases h
      dsimp only
      unfold sentValues forwardedFor
      by_cases hhost : name = "host"
      . subst hhost
        rw [if_pos rfl]
        apply HeaderMap.getAll_insert_self
      . rw [if_neg hhost, HeaderMap.getAll_insert_ne _ _ (Ne.symm hhost)]
        by_cases hxff : name = "x-forwarded-for"
        . subst hxff
          have hown := getAll_endToEnd_own syn req.headers (.inr rfl)
          unfold endToEnd at hown
          rw [if_pos rfl]
          split
          . next hvalue =>
            rw [HeaderMap.append, HeaderMap.getAll_concat, hown, HeaderMap.getAll_singleton_self]
            simp [hvalue]
          . next hvalue =>
            rw [hown]
            simp [hvalue]
        . rw [if_neg hxff]
          split
          . rw [HeaderMap.getAll_append_ne _ _ (Ne.symm hxff)]
            rfl
          . rfl
    . cases h
  . cases h

theorem handshakeHeaders_eq (headers : List (String × String)) (host clientIp : String)
    : handshakeHeaders headers host clientIp
        =
      (headers.filter fun h => isForwarded h.1)
        ++ [ ("host", host), ("connection", "upgrade"), ("upgrade", "websocket"),
             ("x-forwarded-for", mergeXff headers clientIp) ] := by
  unfold handshakeHeaders stripHopByHop
  rw [List.filter_filter]
  refine congrArg₂ List.append (List.filter_congr ?_) rfl
  intro h _
  unfold isForwarded
  cases isHopByHop h.1
  . simp
  . simp

theorem getAll_handshakeHeaders (hnames : syn.headerName "host" ∧ syn.headerName "x-forwarded-for")
    {headers : List (String × String)} {host clientIp : String} (hhost : syn.headerValue host)
    {name : String} (hconnection : name ≠ "connection") (hupgrade : name ≠ "upgrade")
    : (HeaderMap.ofPairs syn (handshakeHeaders headers host clientIp)).getAll name
      = sentValues syn headers host clientIp name := by
  have hlower : toAsciiLowercase "host" = "host" ∧ toAsciiLowercase "connection" = "connection"
      ∧ toAsciiLowercase "upgrade" = "upgrade"
      ∧ toAsciiLowercase "x-forwarded-for" = "x-forwarded-for" := by
    decide
  rcases hlower with ⟨hlower₁, hlower₂, hlower₃, hlower₄⟩
  rw [handshakeHeaders_eq, HeaderMap.getAll_ofPairs_append, HeaderMap.getAll_ofPairs_cons,
    HeaderMap.getAll_ofPairs_cons, HeaderMap.getAll_ofPairs_cons, HeaderMap.getAll_ofPairs_cons]
  dsimp only
  rw [hlower₁, hlower₂, hlower₃, hlower₄, hnames.1, hnames.2, hhost]
  have hnil : (HeaderMap.ofPairs syn []).getAll name = [] := by
    rfl
  have hown (h : name = "host" ∨ name = "x-forwarded-for") := getAll_endToEnd_own syn headers h
  rw [hnil]
  unfold endToEnd at hown
  unfold sentValues forwardedFor endToEnd
  by_cases hname : name = "host"
  . subst hname
    simp [hown]
  . by_cases hxff : name = "x-forwarded-for"
    . subst hxff
      cases hvalue : syn.headerValue (mergeXff headers clientIp)
      . simp [hown, hvalue]
      . simp [hown, hvalue]
    . simp [hname, hxff, Ne.symm hname, Ne.symm hxff, Ne.symm hconnection, Ne.symm hupgrade]

theorem sentValues_congr_iff (syn : HttpSyntax) (headers headers' : List (String × String))
    (host clientIp : String)
    : (∀ name, name ≠ "connection" → name ≠ "upgrade" →
        sentValues syn headers host clientIp name = sentValues syn headers' host clientIp name)
        ↔
      forwardedFor syn headers clientIp = forwardedFor syn headers' clientIp
        ∧ ∀ name, (endToEnd syn headers).getAll name = (endToEnd syn headers').getAll name := by
  constructor
  . intro h
    constructor
    . have hxff : (forwardedFor syn headers clientIp).toList
          = (forwardedFor syn headers' clientIp).toList :=
        h "x-forwarded-for" (by decide) (by decide)
      have hhead := congrArg List.head? hxff
      rw [Option.head?_toList, Option.head?_toList] at hhead
      assumption
    . intro name
      by_cases hhop : name ∈ hopByHop
      . rw [getAll_endToEnd_hopByHop headers hhop, getAll_endToEnd_hopByHop headers' hhop]
      . by_cases hown : name = "host" ∨ name = "x-forwarded-for"
        . rw [getAll_endToEnd_own syn headers hown, getAll_endToEnd_own syn headers' hown]
        . have hconnection : name ≠ "connection" := by
            rintro rfl
            apply hhop
            decide
          have hupgrade : name ≠ "upgrade" := by
            rintro rfl
            apply hhop
            decide
          have hname := h name hconnection hupgrade
          rw [not_or] at hown
          unfold sentValues at hname
          rw [if_neg hown.1, if_neg hown.2, if_neg hown.1, if_neg hown.2] at hname
          assumption
  . rintro ⟨hxff, hrest⟩ name _ _
    unfold sentValues
    rw [hxff, hrest name]

theorem fwdPathAndQuery_eq_iff {ctx : ReqCtx} (hctx : '?' ∉ ctx.path.toList) (uri : Uri)
    : uri.pathAndQuery = fwdPathAndQuery ctx
        ↔
      ctx.path = uri.path ∧ uri.query = if ctx.query.isEmpty then none else some ctx.query := by
  have huri := uri.noQuery
  unfold Uri.pathAndQuery fwdPathAndQuery
  by_cases hempty : ctx.query.isEmpty = true
  . rw [if_pos hempty, if_pos hempty]
    cases uri.query with
    | none =>
      rw [Option.elim_none, String.append_empty]
      simp [eq_comm]
    | some query =>
      simp only [Option.elim_some, reduceCtorEq, and_false, iff_false]
      intro heq
      apply hctx
      rw [← heq]
      simp
  . rw [if_neg hempty, if_neg hempty]
    cases uri.query with
    | none =>
      simp only [Option.elim_none, String.append_empty, reduceCtorEq, and_false, iff_false]
      intro heq
      apply huri
      rw [heq]
      simp
    | some query =>
      rw [← String.toList_inj]
      simp only [Option.elim_some, String.toList_append, List.append_assoc]
      rw [show "?".toList = ['?'] from rfl, List.singleton_append, List.singleton_append,
        List.append_cons_inj_of_free_left huri hctx, String.toList_inj, String.toList_inj,
        Option.some.injEq]
      constructor
      . rintro ⟨hpath, hquery⟩
        exact ⟨hpath.symm, hquery⟩
      . rintro ⟨hpath, hquery⟩
        exact ⟨hpath.symm, hquery⟩

structure Untouched (syn : HttpSyntax) (req : HttpRequest) (ctx : ReqCtx) : Prop where
  path : ctx.path = req.uri.path
  query : req.uri.query = if ctx.query.isEmpty then none else some ctx.query
  forwardedFor : forwardedFor syn req.textHeaders ctx.clientAddr.ip.toString
    = OpenRusty.forwardedFor syn ctx.headers ctx.clientAddr.ip.toString
  endToEnd : ∀ name, (endToEnd syn req.textHeaders).getAll name
    = (OpenRusty.endToEnd syn ctx.headers).getAll name

theorem uri_of_forwardPeer {tls : Option String} {peer : SocketAddr} {req : ForwardRequest}
    {out : Outgoing} (h : forwardPeer syn tls peer req = .ok out)
    : out.method = req.method ∧ out.uri = peerTarget tls peer ++ req.pathAndQuery := by
  have hbuild {scheme uriAuthority : String}
      (h : buildOutgoing syn scheme uriAuthority peer.toString req = .ok out)
      : out.method = req.method ∧ out.uri = scheme ++ "://" ++ uriAuthority ++ req.pathAndQuery := by
    unfold buildOutgoing at h
    dsimp only at h
    split at h
    . split at h
      . cases h
        exact ⟨rfl, rfl⟩
      . cases h
    . cases h
  cases tls with
  | some serverName => exact hbuild h
  | none => exact hbuild h

theorem getAll_of_forwardPeer {tls : Option String} {peer : SocketAddr} {req : ForwardRequest}
    {out : Outgoing} (h : forwardPeer syn tls peer req = .ok out) (name : String)
    : out.headers.getAll name = sentValues syn req.headers peer.toString req.clientIp name := by
  cases tls with
  | some serverName => exact getAll_of_buildOutgoing h name
  | none => exact getAll_of_buildOutgoing h name

theorem handshake_eq_some_iff {tls : Option String} {peer : SocketAddr} {req : HttpRequest}
    {ctx : ReqCtx} {out : Outgoing}
    : handshake syn tls peer req ctx = some out
        ↔
      req.version = .http11 ∧ syn.uri (peerTarget tls peer ++ req.uri.pathAndQuery) = true
        ∧ out = {
            method := req.method
            uri := peerTarget tls peer ++ req.uri.pathAndQuery
            headers := .ofPairs syn
              (handshakeHeaders req.textHeaders peer.toString ctx.clientAddr.ip.toString)
            body := [] } := by
  unfold handshake
  dsimp only
  cases req.version with
  | http2 => simp
  | http11 =>
    by_cases huri : syn.uri (peerTarget tls peer ++ req.uri.pathAndQuery) = true
    . simp [huri, eq_comm]
    . simp [huri]

theorem noQuery_of_rewrites {hd : HostData} (h : '?' ∉ hd.ctx.path.toList) (calls : List RewriteCall)
    : '?' ∉ (hd.rewrites calls).ctx.path.toList := by
  apply HostData.rewrites_inv (P := fun ctx => '?' ∉ ctx.path.toList) _ h
  intro ctx edit hctx hvalid
  cases edit with
  | setUri uri =>
    intro hmem
    simp only [ReqEdit.valid, validUri, Bool.and_eq_true, Bool.not_eq_true', List.any_eq_false] at hvalid
    have := hvalid.2 '?' hmem
    simp at this
  | setQuery query => exact hctx
  | setHeader name value => exact hctx
  | delHeader name => exact hctx

theorem clientAddr_of_rewrites (hd : HostData) (calls : List RewriteCall)
    : (hd.rewrites calls).ctx.clientAddr = hd.ctx.clientAddr := by
  apply HostData.rewrites_inv (P := fun ctx => ctx.clientAddr = hd.ctx.clientAddr) _ rfl
  intro ctx edit hctx _
  cases edit with
  | setUri uri => exact hctx
  | setQuery query => exact hctx
  | setHeader name value => exact hctx
  | delHeader name => exact hctx

theorem carriesRewrites_of_ctx (hnames : syn.headerName "host" ∧ syn.headerName "x-forwarded-for")
    {tls : Option String} {peer : SocketAddr} (hpeer : syn.headerValue peer.toString)
    (req : HttpRequest) {remote : SocketAddr} {ctx : ReqCtx} (hpath : '?' ∉ ctx.path.toList)
    (hremote : ctx.clientAddr = remote) (body : Bytes)
    (hversion : req.version = .http11)
    (huri : syn.uri (peerTarget tls peer ++ req.uri.pathAndQuery) = true)
    : CarriesRewrites (handshake syn tls peer req ctx)
        (forwardPeer syn tls peer (forwardRequest req remote ctx body))
        ↔
      Untouched syn req ctx := by
  have hsame := fwdPathAndQuery_eq_iff hpath req.uri
  have hheaders := sentValues_congr_iff syn req.textHeaders ctx.headers peer.toString
    ctx.clientAddr.ip.toString
  subst hremote
  constructor
  . intro hcarries
    rcases hcarries _ (handshake_eq_some_iff.mpr ⟨hversion, huri, rfl⟩) with ⟨out, hout, halike⟩
    rcases halike with ⟨_, huri', hvalues⟩
    rw [(uri_of_forwardPeer hout).2, String.append_right_inj] at huri'
    have hpq := hsame.mp huri'
    have hvalues' := hheaders.mp (by
      intro name hconnection hupgrade
      have hname := hvalues name hconnection hupgrade
      rw [getAll_handshakeHeaders hnames hpeer hconnection hupgrade, getAll_of_forwardPeer hout] at hname
      assumption)
    exact ⟨hpq.1, hpq.2, hvalues'.1, hvalues'.2⟩
  . intro huntouched sent hsent
    have hpq := hsame.mpr ⟨huntouched.path, huntouched.query⟩
    have hok : syn.uri (peerTarget tls peer
        ++ (forwardRequest req ctx.clientAddr ctx body).pathAndQuery) = true := by
      dsimp [forwardRequest]
      rw [← hpq]
      assumption
    rcases (forwardPeer_eq_ok_iff hpeer).mpr hok with ⟨out, hout⟩
    rcases handshake_eq_some_iff.mp hsent with ⟨_, _, rfl⟩
    refine ⟨out, hout, ?_, ?_, ?_⟩
    . rw [(uri_of_forwardPeer hout).1]
      rfl
    . rw [(uri_of_forwardPeer hout).2]
      dsimp [forwardRequest]
      rw [hpq]
    . intro name hconnection hupgrade
      rw [getAll_handshakeHeaders hnames hpeer hconnection hupgrade, getAll_of_forwardPeer hout]
      apply hheaders.mpr
      . exact ⟨huntouched.forwardedFor, huntouched.endToEnd⟩
      . assumption
      . assumption

theorem carriesRewrites_iff (hnames : syn.headerName "host" ∧ syn.headerName "x-forwarded-for")
    {tls : Option String} {peer : SocketAddr} (hpeer : syn.headerValue peer.toString)
    (req : HttpRequest) (remote : SocketAddr) (routing : Option Nat × Option String) (hd : HostData)
    (calls : List RewriteCall) (body : Bytes)
    : let ctx := (HostData.rewrites { hd with ctx := reqCtx req remote routing } calls).ctx
      CarriesRewrites (handshake syn tls peer req ctx)
        (forwardPeer syn tls peer (forwardRequest req remote ctx body))
        ↔
      req.version = .http2 ∨ syn.uri (peerTarget tls peer ++ req.uri.pathAndQuery) = false
        ∨ Untouched syn req ctx := by
  intro ctx
  have hpath : '?' ∉ ctx.path.toList := by
    apply noQuery_of_rewrites
    exact req.uri.noQuery
  have hremote : ctx.clientAddr = remote := by
    apply clientAddr_of_rewrites
  cases hversion : req.version with
  | http2 =>
    simp only [true_or, iff_true]
    intro sent hsent
    rw [handshake_eq_some_iff, hversion] at hsent
    cases hsent.1
  | http11 =>
    cases huri : syn.uri (peerTarget tls peer ++ req.uri.pathAndQuery) with
    | false =>
      simp only [true_or, or_true, iff_true]
      intro sent hsent
      rw [handshake_eq_some_iff, huri] at hsent
      cases hsent.2.1
    | true =>
      rw [carriesRewrites_of_ctx hnames hpeer req hpath hremote body hversion huri]
      simp

def chatPeer : SocketAddr := { ip := .v4 0x0a000001, port := 8080 }

def chatClient : SocketAddr := { ip := .v4 0xc0a80001, port := 50000 }

def chatUpgrade : HttpRequest where
  method := "GET"
  uri := { path := "/chat", query := some "room=1" }
  headers := [ ("host", some "example.com"), ("connection", some "Upgrade"),
    ("upgrade", some "websocket"), ("authorization", some "old") ]

def chatHost : HostData where
  ctx := reqCtx chatUpgrade chatClient (some 0, some "chat")
  peers := []
  settings := []

def chatCtx (calls : List RewriteCall) : ReqCtx := (chatHost.rewrites calls).ctx

def refusedCalls : List RewriteCall :=
  [.setUri (some "chat"), .setHeader (some "Content-Length") (some "0"), .setQuery none]

theorem refusedCalls_carried
    : isWebsocketUpgrade chatUpgrade.method (chatCtx refusedCalls).headers = true
      ∧ CarriesRewrites (handshake HttpSyntax.visible none chatPeer chatUpgrade (chatCtx refusedCalls))
          (forwardPeer HttpSyntax.visible none chatPeer
            (forwardRequest chatUpgrade chatClient (chatCtx refusedCalls) [])) := by
  constructor
  . decide
  . apply (carriesRewrites_iff (by decide) (by decide) chatUpgrade chatClient (some 0, some "chat")
      chatHost refusedCalls []).mpr
    right
    right
    constructor
    . decide
    . decide
    . decide
    . intro name
      rfl

def rewriteCalls : List RewriteCall :=
  [.setUri (some "/v2/chat"), .setHeader (some "Authorization") (some "new")]

theorem rewriteCalls_dropped
    : isWebsocketUpgrade chatUpgrade.method (chatCtx rewriteCalls).headers = true
      ∧ ¬CarriesRewrites (handshake HttpSyntax.visible none chatPeer chatUpgrade (chatCtx rewriteCalls))
          (forwardPeer HttpSyntax.visible none chatPeer
            (forwardRequest chatUpgrade chatClient (chatCtx rewriteCalls) [])) := by
  constructor
  . decide
  . intro h
    rcases h _ (handshake_eq_some_iff.mpr ⟨rfl, by decide, rfl⟩) with ⟨out, hout, -, huri, -⟩
    rw [(uri_of_forwardPeer hout).2] at huri
    revert huri
    decide

end OpenRusty
