import OpenRusty.Core.Num
import OpenRusty.Server.HandshakeLemmas

/-!
This module contains the policy for the headers of a request that is passed on (`forward.rs`, `ws.rs`,
`upstream.rs`): the two paths build their requests separately and follow the same policy. It drops a fixed
list of names, and not the ones that the client nominates in its `Connection` headers.
-/

namespace OpenRusty

section valueText

def isValueChar (c : Char) : Bool := c == '\t' || decide (0x20 ≤ c.toNat ∧ c.toNat < 0x7f)

/-- What the `http` crate says about the values of headers, and about the names that the proxy sets. -/
structure HttpSyntax.Documented (syn : HttpSyntax) : Prop where
  headerValue : ∀ value, syn.headerValue value = value.toList.all isValueChar
  headerName : ∀ name ∈ ["host", "x-forwarded-for", "connection", "upgrade"], syn.headerName name = true
  token : ∀ name, syn.headerName name = true → ∀ c ∈ name.toList, isWhiteSpace c = false

def isTokenChar (c : Char) : Bool := c.isAlphanum || "!#$%&'*+-.^_|~".toList.contains c

def HttpSyntax.ascii : HttpSyntax where
  uri text := text.toList.all fun c => decide (0x20 < c.toNat ∧ c.toNat < 0x7f)
  headerName text := !text.isEmpty && text.toList.all isTokenChar
  headerValue text := text.toList.all isValueChar

theorem isWhiteSpace_of_isTokenChar {c : Char} (h : isTokenChar c = true) : isWhiteSpace c = false := by
  unfold isTokenChar at h
  rw [Bool.or_eq_true] at h
  rcases h with halpha | hsymbol
  . change (decide ('A'.val ≤ c.val ∧ c.val ≤ 'Z'.val) || ('a'.val ≤ c.val && c.val ≤ 'z'.val)
      || ('0'.val ≤ c.val && c.val ≤ '9'.val)) = true at halpha
    simp only [Bool.or_eq_true, Bool.and_eq_true, decide_eq_true_eq, UInt32.le_iff_toNat_le] at halpha
    have hrange : 0x30 ≤ c.toNat ∧ c.toNat ≤ 0x7a := by
      unfold Char.toNat
      rcases halpha with (⟨hlow, hhigh⟩ | ⟨hlow, hhigh⟩) | ⟨hlow, hhigh⟩
      . exact ⟨Nat.le_trans (by decide) hlow, Nat.le_trans hhigh (by decide)⟩
      . exact ⟨Nat.le_trans (by decide) hlow, Nat.le_trans hhigh (by decide)⟩
      . exact ⟨Nat.le_trans (by decide) hlow, Nat.le_trans hhigh (by decide)⟩
    simp only [isWhiteSpace, decide_eq_false_iff_not]
    omega
  . have hsymbols : "!#$%&'*+-.^_|~".toList.all (fun c => isWhiteSpace c = false) = true := by decide
    simpa using List.all_eq_true.mp hsymbols c (List.contains_iff_mem.mp hsymbol)

theorem documented_ascii : HttpSyntax.ascii.Documented where
  headerValue value := rfl
  headerName := by decide
  token name h c hc := by
    have hall : name.toList.all isTokenChar = true := (Bool.and_eq_true_iff.mp h).2
    exact isWhiteSpace_of_isTokenChar (List.all_eq_true.mp hall c hc)

theorem headerValue_iff {syn : HttpSyntax} (hsyn : syn.Documented) {value : String}
    : syn.headerValue value = true ↔ TextOf isValueChar value := by
  rw [hsyn.headerValue, List.all_eq_true]
  rfl

end valueText

section address

def isAddrChar (c : Char) : Bool := "0123456789abcdef.:[]*".toList.contains c

theorem addrChar {c : Char} (h : isAddrChar c = true)
    : isValueChar c = true ∧ isWhiteSpace c = false ∧ c ≠ ',' := by
  have hall : "0123456789abcdef.:[]*".toList.all (fun c =>
      isValueChar c = true ∧ isWhiteSpace c = false ∧ c ≠ ',') = true := by
    decide
  simpa using List.all_eq_true.mp hall c (List.contains_iff_mem.mp h)

theorem isAddrChar_digitChar (n : Nat) : isAddrChar n.digitChar = true := by
  have hdigits : ∀ digit < 16, isAddrChar (Nat.digitChar digit) = true := by decide
  by_cases hn : n < 16
  . exact hdigits n hn
  . have hstar : n.digitChar = '*' := by
      unfold Nat.digitChar
      repeat rw [if_neg (by omega)]
    rw [hstar]
    rfl

theorem isAddrChar_toDigits {b n : Nat} (hb : 1 < b) : ∀ c ∈ Nat.toDigits b n, isAddrChar c = true := by
  induction n using Nat.strongRecOn with
  | ind n ih =>
    intro c hc
    rw [Nat.toDigits_eq_if hb] at hc
    split at hc
    . rw [List.mem_singleton] at hc
      subst hc
      apply isAddrChar_digitChar
    . next hle =>
      rcases List.mem_append.mp hc with hc | hc
      . exact ih (n / b) (Nat.div_lt_self (by omega) hb) c hc
      . rw [List.mem_singleton] at hc
        subst hc
        apply isAddrChar_digitChar

theorem textOf_toString (n : Nat) : TextOf isAddrChar (toString n) := by
  intro c hc
  rw [toList_toString] at hc
  exact isAddrChar_toDigits (by decide) c hc

theorem textOf_showV4 (octets : BitVec 32) : TextOf isAddrChar (IpAddr.showV4 octets) := by
  apply TextOf.intercalate
  . decide
  . intro part hpart
    rcases List.mem_map.mp hpart with ⟨octet, -, rfl⟩
    apply textOf_toString

theorem textOf_showSegments (segments : List Nat) : TextOf isAddrChar (IpAddr.showSegments segments) := by
  apply TextOf.intercalate
  . decide
  . intro part hpart
    rcases List.mem_map.mp hpart with ⟨segment, -, rfl⟩
    intro c hc
    rw [String.toList_ofList] at hc
    exact isAddrChar_toDigits (by decide) c hc

theorem textOf_showV6 (octets : BitVec 128) : TextOf isAddrChar (IpAddr.showV6 octets) := by
  unfold IpAddr.showV6
  dsimp only
  split
  . exact TextOf.append (by decide) (textOf_showV4 _)
  . split
    . exact ((textOf_showSegments _).append (by decide)).append (textOf_showSegments _)
    . apply textOf_showSegments

theorem textOf_ip (ip : IpAddr) : TextOf isAddrChar ip.toString := by
  cases ip with
  | v4 octets => apply textOf_showV4
  | v6 octets => apply textOf_showV6

theorem textOf_addr (addr : SocketAddr) : TextOf isAddrChar addr.toString := by
  unfold SocketAddr.toString
  cases addr.ip with
  | v4 octets => exact ((textOf_showV4 octets).append (by decide)).append (textOf_toString _)
  | v6 octets =>
    exact ((TextOf.append (by decide) (textOf_showV6 octets)).append (by decide)).append (textOf_toString _)

theorem headerValue_of_addrText {syn : HttpSyntax} (hsyn : syn.Documented) {s : String} (hs : TextOf isAddrChar s)
    : syn.headerValue s = true := by
  rw [headerValue_iff hsyn]
  intro c hc
  exact (addrChar (hs c hc)).1

end address

section policy

def listElements (value : String) : List String :=
  (value.toList.splitOn ',').map fun element => trim (String.ofList element)

def incomingXff (headers : List (String × String)) : List String :=
  (headers.filter fun h => eqIgnoreAsciiCase h.1 "x-forwarded-for").map Prod.snd

variable (syn : HttpSyntax)

def validValues (headers : List (String × String)) (name : String) : List String :=
  (headers.filter fun h => syn.headerName h.1 && syn.headerValue h.2 && toAsciiLowercase h.1 == name).map Prod.snd

/-- The headers of the upgrade itself are `upgrade`. -/
structure FollowsPolicy (headers : List (String × String)) (host clientIp : String) (upgrade sent : HeaderMap)
    : Prop where
  stripped : ∀ name ∈ hopByHop, sent.getAll name = upgrade.getAll name
  host : sent.getAll "host" = [host]
  xff : ∃ value, sent.getAll "x-forwarded-for" = [value]
    ∧ listElements value = (incomingXff headers).flatMap listElements ++ [clientIp]
  others : ∀ name, name ∉ hopByHop → name ≠ "host" → name ≠ "x-forwarded-for" →
    sent.getAll name = validValues syn headers name

def upgradePair : HeaderMap := [("connection", "upgrade"), ("upgrade", "websocket")]

variable {syn}

section elements

theorem dropWhile_space (cs : List Char) : (' ' :: cs).dropWhile isWhiteSpace = cs.dropWhile isWhiteSpace := by
  rfl

theorem listElements_join (a b : String) : listElements (a ++ ", " ++ b) = listElements a ++ listElements b := by
  have hspace : ((' ' :: b.toList).splitOn ',').map (fun element => trim (String.ofList element)) = listElements b := by
    unfold listElements
    rw [List.splitOn_cons_eq_if_modifyHead, if_neg (by decide)]
    cases hsplit : b.toList.splitOn ',' with
    | nil => exact absurd hsplit (List.splitOn_ne_nil ',' b.toList)
    | cons element elements =>
      rw [List.modifyHead_cons, List.map_cons, List.map_cons]
      congr 1
      simp only [trim, String.toList_ofList, dropWhile_space]
  have hsep : (", " : String).toList = [',', ' '] := by decide
  rw [listElements, String.toList_append, String.toList_append, hsep, List.append_assoc, List.cons_append,
    List.cons_append, List.nil_append, List.splitOn_append_cons_self, List.map_append, hspace]
  rfl

theorem listElements_intercalate {parts : List String} (hne : parts ≠ [])
    : listElements (", ".intercalate parts) = parts.flatMap listElements := by
  induction parts with
  | nil => exact absurd rfl hne
  | cons part parts ih =>
    cases parts with
    | nil => rw [String.intercalate_singleton, List.flatMap_singleton]
    | cons next parts =>
      rw [String.intercalate_cons_cons, listElements_join, ih (List.cons_ne_nil next parts)]
      rfl

theorem listElements_addrText {s : String} (hs : TextOf isAddrChar s) : listElements s = [s] := by
  have hcomma : ',' ∉ s.toList := fun hc => (addrChar (hs ',' hc)).2.2 rfl
  have htrim : trim s = s := trim_eq_self fun c hc => (addrChar (hs c hc)).2.1
  rw [listElements, List.splitOn_eq_singleton hcomma, List.map_singleton, String.ofList_toList, htrim]

theorem listElements_mergeXff (headers : List (String × String)) {clientIp : String} (hip : TextOf isAddrChar clientIp)
    : listElements (mergeXff headers clientIp) = (incomingXff headers).flatMap listElements ++ [clientIp] := by
  have hne : incomingXff headers ++ [clientIp] ≠ [] := by simp
  have hmerge : mergeXff headers clientIp = ", ".intercalate (incomingXff headers ++ [clientIp]) := rfl
  rw [hmerge, listElements_intercalate hne, List.flatMap_append, List.flatMap_singleton, listElements_addrText hip]

end elements

section sent

variable {headers : List (String × String)} {host clientIp : String}

theorem forwardedFor_eq_some (hsyn : syn.Documented) (hip : TextOf isAddrChar clientIp)
    (hxff : ∀ value ∈ incomingXff headers, syn.headerValue value = true)
    : forwardedFor syn headers clientIp = some (mergeXff headers clientIp) := by
  have hmerge : syn.headerValue (mergeXff headers clientIp) = true := by
    rw [headerValue_iff hsyn]
    apply TextOf.intercalate
    . decide
    . intro part hpart
      rcases List.mem_append.mp hpart with hincoming | hclient
      . exact (headerValue_iff hsyn).mp (hxff part hincoming)
      . rw [List.mem_singleton] at hclient
        subst hclient
        exact (headerValue_iff hsyn).mp (headerValue_of_addrText hsyn hip)
  unfold forwardedFor
  rw [if_pos hmerge]

theorem lowercase_mem_of_isHopByHop {name : String} (htoken : ∀ c ∈ name.toList, isWhiteSpace c = false)
    (h : isHopByHop name = true)
    : toAsciiLowercase name ∈ hopByHop := by
  unfold isHopByHop at h
  rw [trim_eq_self htoken, List.any_eq_true] at h
  rcases h with ⟨hop, hhop, heq⟩
  have hlower : ∀ hop ∈ hopByHop, toAsciiLowercase hop = hop := by decide
  rw [eqIgnoreAsciiCase_iff, hlower hop hhop] at heq
  rw [← heq]
  exact hhop

theorem getAll_endToEnd_other (hsyn : syn.Documented) {name : String} (hhop : name ∉ hopByHop) (hhost : name ≠ "host")
    (hxff : name ≠ "x-forwarded-for")
    : (endToEnd syn headers).getAll name = validValues syn headers name := by
  unfold endToEnd HeaderMap.getAll HeaderMap.ofPairs validValues
  rw [List.filter_map, List.map_map, List.filter_filter, List.filter_filter]
  congr 1
  apply List.filter_congr
  intro h _
  cases hvalid : syn.headerName h.1 && syn.headerValue h.2 with
  | false => simp
  | true =>
    cases hname : toAsciiLowercase h.1 == name with
    | false => simp [hname]
    | true =>
      rw [beq_iff_eq] at hname
      have htoken := hsyn.token h.1 (Bool.and_eq_true_iff.mp hvalid).1
      have hforwarded : isForwarded h.1 = true := by
        unfold isForwarded
        rw [Bool.not_eq_true', Bool.or_eq_false_iff, Bool.or_eq_false_iff]
        refine ⟨⟨?_, ?_⟩, ?_⟩
        . rw [Bool.eq_false_iff]
          intro hhop'
          exact hhop (hname ▸ lowercase_mem_of_isHopByHop htoken hhop')
        . rw [Bool.eq_false_iff, Ne, eqIgnoreAsciiCase_iff, hname]
          exact hhost
        . rw [Bool.eq_false_iff, Ne, eqIgnoreAsciiCase_iff, hname]
          exact hxff
      simp [hname, hforwarded]

theorem followsPolicy_of_sentValues (hsyn : syn.Documented) (hip : TextOf isAddrChar clientIp)
    (hxff : ∀ value ∈ incomingXff headers, syn.headerValue value = true) {upgrade sent : HeaderMap}
    (hupgrade : ∀ name ∈ hopByHop, sent.getAll name = upgrade.getAll name)
    (hsent : ∀ name, name ≠ "connection" → name ≠ "upgrade" →
      sent.getAll name = sentValues syn headers host clientIp name)
    : FollowsPolicy syn headers host clientIp upgrade sent where
  stripped := hupgrade
  host := by
    rw [hsent "host" (by decide) (by decide)]
    rfl
  xff := by
    refine ⟨mergeXff headers clientIp, ?_, listElements_mergeXff headers hip⟩
    rw [hsent "x-forwarded-for" (by decide) (by decide), sentValues, if_neg (by decide), if_pos rfl,
      forwardedFor_eq_some hsyn hip hxff]
    rfl
  others := by
    intro name hhop hhost hxff
    have hne : ∀ hop ∈ hopByHop, name ≠ hop := by
      rintro hop hmem rfl
      exact hhop hmem
    rw [hsent name (hne "connection" (by decide)) (hne "upgrade" (by decide)), sentValues, if_neg hhost, if_neg hxff,
      getAll_endToEnd_other hsyn hhop hhost hxff]

theorem ne_own_of_hopByHop {name : String} (hhop : name ∈ hopByHop) : name ≠ "host" ∧ name ≠ "x-forwarded-for" := by
  have hall : ∀ hop ∈ hopByHop, hop ≠ "host" ∧ hop ≠ "x-forwarded-for" := by decide
  exact hall name hhop

theorem getAll_handshakeHeaders_hopByHop (hsyn : syn.Documented) {name : String} (hhop : name ∈ hopByHop)
    : (HeaderMap.ofPairs syn (handshakeHeaders headers host clientIp)).getAll name = upgradePair.getAll name := by
  have hown := ne_own_of_hopByHop hhop
  have hlower : toAsciiLowercase "host" = "host" ∧ toAsciiLowercase "connection" = "connection"
      ∧ toAsciiLowercase "upgrade" = "upgrade"
      ∧ toAsciiLowercase "x-forwarded-for" = "x-forwarded-for" := by
    decide
  have hvalues : syn.headerValue "upgrade" = true ∧ syn.headerValue "websocket" = true := by
    rw [headerValue_iff hsyn, headerValue_iff hsyn]
    decide
  have hstripped := @getAll_endToEnd_hopByHop syn headers name hhop
  unfold endToEnd at hstripped
  rw [handshakeHeaders_eq, HeaderMap.getAll_ofPairs_append, hstripped, HeaderMap.getAll_ofPairs_cons,
    HeaderMap.getAll_ofPairs_cons, HeaderMap.getAll_ofPairs_cons, HeaderMap.getAll_ofPairs_cons]
  dsimp only
  rw [hlower.1, hlower.2.1, hlower.2.2.1, hlower.2.2.2, hvalues.1, hvalues.2,
    hsyn.headerName "connection" (by decide), hsyn.headerName "upgrade" (by decide)]
  have hnil : (HeaderMap.ofPairs syn []).getAll name = [] := by
    rfl
  rw [hnil]
  by_cases hconnection : "connection" = name
  . subst hconnection
    simp [upgradePair, HeaderMap.getAll]
  . by_cases hupgrade : "upgrade" = name
    . subst hupgrade
      simp [upgradePair, HeaderMap.getAll]
    . simp [upgradePair, HeaderMap.getAll, hconnection, hupgrade, Ne.symm hown.1, Ne.symm hown.2]

theorem getAll_forwardPeer_hopByHop {tls : Option String} {peer : SocketAddr} {req : ForwardRequest} {out : Outgoing}
    (hout : forwardPeer syn tls peer req = .ok out) {name : String} (hhop : name ∈ hopByHop)
    : out.headers.getAll name = HeaderMap.getAll [] name := by
  obtain ⟨hhost, hxff⟩ := ne_own_of_hopByHop hhop
  rw [getAll_of_forwardPeer hout, sentValues, if_neg hhost, if_neg hxff, getAll_endToEnd_hopByHop req.headers hhop]
  rfl

theorem getAll_handshakeHeaders_other (hsyn : syn.Documented) (peer : SocketAddr) {name : String}
    (hconnection : name ≠ "connection") (hupgrade : name ≠ "upgrade")
    : (HeaderMap.ofPairs syn (handshakeHeaders headers peer.toString clientIp)).getAll name
        =
      sentValues syn headers peer.toString clientIp name := by
  apply getAll_handshakeHeaders _ _ hconnection hupgrade
  . exact ⟨hsyn.headerName "host" (by decide), hsyn.headerName "x-forwarded-for" (by decide)⟩
  . exact headerValue_of_addrText hsyn (textOf_addr peer)

theorem both_follow_policy (hsyn : syn.Documented) (headers : List (String × String)) (peer : SocketAddr)
    (client : IpAddr) (hxff : ∀ value ∈ incomingXff headers, syn.headerValue value = true)
    : (∀ tls method pathAndQuery body out,
        forwardPeer syn tls peer { method, pathAndQuery, headers, body, clientIp := client.toString } = .ok out →
          FollowsPolicy syn headers peer.toString client.toString [] out.headers)
      ∧ ∀ tls req ctx out, req.textHeaders = headers → ctx.clientAddr.ip = client →
        handshake syn tls peer req ctx = some out →
          FollowsPolicy syn headers peer.toString client.toString upgradePair out.headers := by
  constructor
  . intro tls method pathAndQuery body out hout
    apply followsPolicy_of_sentValues hsyn (textOf_ip client) hxff
    . intro name hhop
      exact getAll_forwardPeer_hopByHop hout hhop
    . intro name _ _
      exact getAll_of_forwardPeer hout name
  . intro tls req ctx out hreq hctx hout
    rw [handshake_eq_some_iff, hreq, hctx] at hout
    rcases hout with ⟨-, -, rfl⟩
    apply followsPolicy_of_sentValues hsyn (textOf_ip client) hxff
    . intro name hhop
      exact getAll_handshakeHeaders_hopByHop hsyn hhop
    . intro name hconnection hupgrade
      exact getAll_handshakeHeaders_other hsyn peer hconnection hupgrade

end sent

theorem both_follow_policy_mixed
    : let headers := [("Connection", "close"), ("x-forwarded-for", "1.2.3.4, 5.6.7.8"), ("X-A", "1"), ("HOST", "b"),
        ("X-Forwarded-For", "9.9.9.9"), ("x-a", "2"), ("no name", "3")]
      let peer : SocketAddr := { ip := .v4 0x0a000001#32, port := 80#16 }
      let client : IpAddr := .v4 0x7f000001#32
      ∃ out, forwardPeer .ascii none peer
          { method := "GET", pathAndQuery := "/", headers, body := [], clientIp := client.toString } = .ok out
        ∧ FollowsPolicy .ascii headers peer.toString client.toString [] out.headers := by
  refine ⟨_, rfl, ?_⟩
  apply (both_follow_policy documented_ascii _ _ (.v4 0x7f000001#32) (by decide)).1 none "GET" "/" []
  rfl

end policy

section nominated

def nominated (headers : List (String × String)) : List String :=
  (headers.filter fun h => eqIgnoreAsciiCase h.1 "connection").flatMap fun h => tokens h.2

def NominatedDropped (headers : List (String × String)) (upgrade sent : HeaderMap) : Prop :=
  ∀ token ∈ nominated headers, sent.getAll token = upgrade.getAll token

variable (syn : HttpSyntax)

def NominatesNothing (headers : List (String × String)) (clientIp : String) : Prop :=
  ∀ token ∈ nominated headers, token ∈ hopByHop
    ∨ token = "x-forwarded-for" ∧ syn.headerValue (mergeXff headers clientIp) = false
    ∨ token ≠ "host" ∧ token ≠ "x-forwarded-for" ∧ validValues syn headers token = []

variable {syn}

theorem nominatedDropped_iff (hsyn : syn.Documented) {headers : List (String × String)} {host clientIp : String}
    {upgrade sent : HeaderMap} (hupgrade : ∀ name, name ∉ hopByHop → upgrade.getAll name = [])
    (hstripped : ∀ name ∈ hopByHop, sent.getAll name = upgrade.getAll name)
    (hsent : ∀ name, name ∉ hopByHop → sent.getAll name = sentValues syn headers host clientIp name)
    : NominatedDropped headers upgrade sent ↔ NominatesNothing syn headers clientIp := by
  have htoken : ∀ token, sent.getAll token = upgrade.getAll token
      ↔ token ∈ hopByHop
        ∨ token = "x-forwarded-for" ∧ syn.headerValue (mergeXff headers clientIp) = false
        ∨ token ≠ "host" ∧ token ≠ "x-forwarded-for" ∧ validValues syn headers token = [] := by
    intro token
    by_cases hhop : token ∈ hopByHop
    . simp [hhop, hstripped token hhop]
    . rw [hsent token hhop, hupgrade token hhop, sentValues]
      by_cases hhost : token = "host"
      . subst hhost
        simp [hhop]
      . by_cases hxff : token = "x-forwarded-for"
        . subst hxff
          rw [if_neg hhost, if_pos rfl, forwardedFor]
          cases hvalue : syn.headerValue (mergeXff headers clientIp) with
          | false => simp
          | true => simp [hhop]
        . rw [if_neg hhost, if_neg hxff, getAll_endToEnd_other hsyn hhop hhost hxff]
          simp [hhop, hhost, hxff]
  unfold NominatedDropped NominatesNothing
  constructor
  . intro h token hmem
    exact (htoken token).mp (h token hmem)
  . intro h token hmem
    exact (htoken token).mpr (h token hmem)

theorem both_drop_nominated_iff (hsyn : syn.Documented) (headers : List (String × String)) (peer : SocketAddr)
    (client : IpAddr)
    : (∀ tls method pathAndQuery body out,
        forwardPeer syn tls peer { method, pathAndQuery, headers, body, clientIp := client.toString } = .ok out →
          (NominatedDropped headers [] out.headers ↔ NominatesNothing syn headers client.toString))
      ∧ ∀ tls req ctx out, req.textHeaders = headers → ctx.clientAddr.ip = client →
        handshake syn tls peer req ctx = some out →
          (NominatedDropped headers upgradePair out.headers ↔ NominatesNothing syn headers client.toString) := by
  constructor
  . intro tls method pathAndQuery body out hout
    apply nominatedDropped_iff hsyn (fun _ _ => rfl)
    . intro name hhop
      exact getAll_forwardPeer_hopByHop hout hhop
    . intro name _
      exact getAll_of_forwardPeer hout name
  . intro tls req ctx out hreq hctx hout
    rw [handshake_eq_some_iff, hreq, hctx] at hout
    rcases hout with ⟨-, -, rfl⟩
    have hpair : ∀ name, name ∉ hopByHop → name ≠ "connection" ∧ name ≠ "upgrade" := by
      intro name hhop
      constructor
      . rintro rfl
        exact hhop (by decide)
      . rintro rfl
        exact hhop (by decide)
    apply nominatedDropped_iff hsyn
    . intro name hhop
      obtain ⟨hconnection, hupgrade⟩ := hpair name hhop
      simp [upgradePair, HeaderMap.getAll, Ne.symm hconnection, Ne.symm hupgrade]
    . intro name hhop
      exact getAll_handshakeHeaders_hopByHop hsyn hhop
    . intro name hhop
      obtain ⟨hconnection, hupgrade⟩ := hpair name hhop
      exact getAll_handshakeHeaders_other hsyn peer hconnection hupgrade

def secretHeaders : List (String × String) := [("Connection", "close, X-Secret"), ("X-Secret", "1")]

theorem both_drop_nominated_iff_absent
    : let peer : SocketAddr := { ip := .v4 0x0a000001#32, port := 80#16 }
      ∃ out, forwardPeer .ascii none peer
          { method := "GET", pathAndQuery := "/", headers := [("Connection", "X-Secret")], body := []
            clientIp := (IpAddr.v4 0x7f000001#32).toString } = .ok out
        ∧ NominatedDropped [("Connection", "X-Secret")] [] out.headers := by
  refine ⟨_, rfl, ?_⟩
  rw [(both_drop_nominated_iff documented_ascii _ { ip := .v4 0x0a000001#32, port := 80#16 }
    (.v4 0x7f000001#32)).1 none "GET" "/" [] _ rfl]
  show ∀ token ∈ nominated [("Connection", "X-Secret")], _
  decide

theorem nominated_header_forwarded
    : ¬∀ (headers : List (String × String)) (peer : SocketAddr) (client : IpAddr) (out : Outgoing),
        forwardPeer .ascii none peer
            { method := "GET", pathAndQuery := "/", headers, body := [], clientIp := client.toString } = .ok out →
          NominatedDropped headers [] out.headers := by
  intro h
  have hsecret := h secretHeaders { ip := .v4 0x0a000001#32, port := 80#16 } (.v4 0x7f000001#32) _ rfl "x-secret"
    (by decide)
  exact absurd hsecret (by decide)

end nominated

end OpenRusty
