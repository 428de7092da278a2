import OpenRusty.Server.ShortCircuit

/-!
This module contains the comparison of the response to a dynamic module with the short circuit of the
pipeline. With a body the two differ only for a denial with status 204; without one the response to a
dynamic module has lost the headers that the module has set.
-/

namespace OpenRusty

variable {syn : HttpSyntax}

theorem getAll_ofPairs (pairs : List (String × String)) (name : String)
    : (HeaderMap.ofPairs syn pairs).getAll name
      = ((headersOf pairs name).filter fun h => syn.headerName h.1 && syn.headerValue h.2).map
          Prod.snd := by
  unfold HeaderMap.getAll HeaderMap.ofPairs headersOf
  rw [List.filter_map, List.map_map, List.filter_filter, List.filter_filter]
  congr 1
  apply List.filter_congr
  intro h _
  apply Bool.and_comm

theorem headersOf_filter (headers : List (String × String)) (p : String × String → Bool) (name : String)
    : headersOf (headers.filter p) name = (headersOf headers name).filter p := by
  unfold headersOf
  rw [List.filter_filter, List.filter_filter]
  apply List.filter_congr
  intro h _
  apply Bool.and_comm

theorem hasContentType_iff (headers : List (String × String))
    : hasContentType headers = true ↔ headersOf headers "content-type" ≠ [] := by
  have hlower : toAsciiLowercase "content-type" = "content-type" := by
    decide
  unfold hasContentType headersOf
  rw [List.any_eq_true, ne_eq, List.filter_eq_nil_iff]
  simp only [eqIgnoreAsciiCase_iff, hlower, beq_iff_eq, not_forall, not_not, exists_prop]

theorem getAll_withPluginHeaders_congr {headers headers' : List (String × String)}
    (h : ∀ name, headersOf headers name = headersOf headers' name) (defaultContentType : Bool)
    (name : String)
    : (withPluginHeaders syn headers defaultContentType).getAll name
      = (withPluginHeaders syn headers' defaultContentType).getAll name := by
  have htype : hasContentType headers = hasContentType headers' := by
    rw [Bool.eq_iff_iff, hasContentType_iff, hasContentType_iff, h]
  unfold withPluginHeaders
  rw [htype]
  dsimp only
  split
  . unfold HeaderMap.append
    rw [HeaderMap.getAll_concat, HeaderMap.getAll_concat, getAll_ofPairs, getAll_ofPairs,
      headersOf_filter, headersOf_filter, h]
  . rw [getAll_ofPairs, getAll_ofPairs, headersOf_filter, headersOf_filter, h]

/-- The condition on what the plugin decided and wrote, `bodyThen` being the body as of the decision. -/
def AnsweredAlike (syn : HttpSyntax) (d : Decision) (bodyThen : Option Bytes) (s : SessionState) : Prop :=
  match d with
  | .deny status =>
    status ≠ 204 ∧ (hasBody s.respBody ∨ withPluginHeaders syn s.respHeaders true = [textPlain])
  | .done =>
    hasBody s.respBody ∨ hasBody bodyThen = false ∧ withPluginHeaders syn s.respHeaders false = []
  | _ => False

theorem hasBody_eq_isSome (s : SessionState) : hasBody s.respBody = (carriedBody s).isSome := by
  unfold hasBody carriedBody
  cases s.respBody with
  | none => rfl
  | some b =>
    rw [Option.any_some, Option.filter_some]
    split
    . next hb => simpa using hb
    . next hb => simpa using hb

theorem outcomeResponse_of_body {outcome : DynOutcome} {body : Bytes}
    (hbody : (outcome.body.filter fun b => !b.isEmpty) = some body)
    (hstatus : isStatus outcome.status = true)
    : outcomeResponse syn outcome
      = { status := outcome.status
          headers := withPluginHeaders syn outcome.headers true
          body := body } := by
  unfold outcomeResponse
  rw [hbody]
  dsimp only
  rw [if_pos hstatus]

theorem outcomeResponse_of_no_body {outcome : DynOutcome}
    (hbody : (outcome.body.filter fun b => !b.isEmpty) = none)
    (hstatus : isStatus outcome.status = true)
    : outcomeResponse syn outcome
      = if outcome.status = 204 then
          { status := 204 }
        else
          { status := outcome.status
            headers := [textPlain]
            body := textBytes (statusText outcome.status) } := by
  unfold outcomeResponse textResponse
  rw [hbody, hstatus]
  rfl

section ofRun

variable (status : Nat) (bodyThen : Option Bytes) (s : SessionState) (edits : List HeaderEdit)

theorem status_ofRun_done
    : (DynOutcome.ofRun (some .done) bodyThen s.respBody s.respHeaders edits).status
      = if hasBody bodyThen || (carriedBody s).isSome then 200 else 204 := by
  rw [← hasBody_eq_isSome]
  unfold DynOutcome.ofRun
  cases hasBody bodyThen
  . cases hasBody s.respBody
    . rfl
    . rfl
  . rfl

theorem status_ofRun_deny
    : (DynOutcome.ofRun (some (.deny status)) bodyThen s.respBody s.respHeaders edits).status
      = if status == 204 && (carriedBody s).isSome then 200 else status := by
  rw [← hasBody_eq_isSome]
  rfl

theorem body_ofRun (d : Decision)
    : ((DynOutcome.ofRun (some d) bodyThen s.respBody s.respHeaders edits).body.filter
        fun b => !b.isEmpty)
      = carriedBody s := by
  unfold DynOutcome.ofRun carriedBody
  simp

end ofRun

def dynResponse (syn : HttpSyntax) (d : Decision) (bodyThen : Option Bytes) (s : SessionState)
    (edits : List HeaderEdit)
    : HttpResponse :=
  outcomeResponse syn (.ofRun (some d) bodyThen s.respBody s.respHeaders edits)

section sameResponse

variable {d : Decision} {bodyThen : Option Bytes} {s : SessionState} {edits : List HeaderEdit}
  {status : Nat}

theorem getAll_replayed (hheaders : s.respHeaders = finalHeaders [] edits) (name : String)
    : (withPluginHeaders syn (DynOutcome.ofRun (some d) bodyThen s.respBody s.respHeaders edits).headers
        true).getAll name
      = (withPluginHeaders syn s.respHeaders true).getAll name := by
  apply getAll_withPluginHeaders_congr
  intro other
  unfold DynOutcome.ofRun
  rw [hheaders]
  apply headersOf_replay

theorem dynResponse_done_of_body (hheaders : s.respHeaders = finalHeaders [] edits)
    {body : Bytes} (hbody : carriedBody s = some body)
    : SameResponse (dynResponse syn .done bodyThen s edits) (doneResponse syn s) := by
  have hstatus := status_ofRun_done bodyThen s edits
  rw [hbody, Option.isSome_some, Bool.or_true, if_pos rfl] at hstatus
  have hfilter := body_ofRun bodyThen s edits .done
  rw [hbody] at hfilter
  unfold dynResponse doneResponse bodyResponse
  rw [outcomeResponse_of_body hfilter (by rw [hstatus]; rfl), hbody, hstatus]
  dsimp only
  refine ⟨rfl, rfl, ?_⟩
  apply getAll_replayed hheaders

theorem dynResponse_done_of_no_body (hbody : carriedBody s = none)
    : SameResponse (dynResponse syn .done bodyThen s edits) (doneResponse syn s)
        ↔
      hasBody bodyThen = false ∧ withPluginHeaders syn s.respHeaders false = [] := by
  have hstatus := status_ofRun_done bodyThen s edits
  rw [hbody, Option.isSome_none, Bool.or_false] at hstatus
  have hfilter := body_ofRun bodyThen s edits .done
  rw [hbody] at hfilter
  have hrange : isStatus (DynOutcome.ofRun (some .done) bodyThen s.respBody s.respHeaders edits).status
      = true := by
    rw [hstatus]
    split
    . rfl
    . rfl
  unfold dynResponse doneResponse
  rw [outcomeResponse_of_no_body hfilter hrange, hbody, hstatus]
  dsimp only
  cases hasBody bodyThen with
  | true =>
    simp [SameResponse]
  | false =>
    simp only [Bool.false_eq_true, if_false, if_true, true_and, SameResponse]
    constructor
    . intro h
      apply HeaderMap.eq_nil_of_getAll
      intro name
      rw [← h name]
      rfl
    . intro h name
      rw [h]

theorem dynResponse_deny_of_body (hrange : isStatus status = true)
    (hheaders : s.respHeaders = finalHeaders [] edits) {body : Bytes} (hbody : carriedBody s = some body)
    : SameResponse (dynResponse syn (.deny status) bodyThen s edits) (denyResponse syn s status)
        ↔
      status ≠ 204 := by
  have hstatus := status_ofRun_deny status bodyThen s edits
  rw [hbody, Option.isSome_some, Bool.and_true] at hstatus
  have hfilter := body_ofRun bodyThen s edits (.deny status)
  rw [hbody] at hfilter
  unfold dynResponse denyResponse bodyResponse
  by_cases h204 : status = 204
  . subst h204
    rw [outcomeResponse_of_body hfilter (by rw [hstatus]; rfl), hstatus]
    simp [SameResponse, hrange]
  . have hne : (status == 204) = false := by
      simpa using h204
    rw [hne, if_neg (by decide)] at hstatus
    rw [outcomeResponse_of_body hfilter (by rw [hstatus]; exact hrange), hstatus, hbody, if_pos hrange]
    simp only [h204, ne_eq, not_false_eq_true, iff_true]
    refine ⟨rfl, rfl, ?_⟩
    apply getAll_replayed hheaders

theorem dynResponse_deny_of_no_body (hrange : isStatus status = true) (hbody : carriedBody s = none)
    : SameResponse (dynResponse syn (.deny status) bodyThen s edits) (denyResponse syn s status)
        ↔
      status ≠ 204 ∧ withPluginHeaders syn s.respHeaders true = [textPlain] := by
  have hstatus := status_ofRun_deny status bodyThen s edits
  rw [hbody, Option.isSome_none, Bool.and_false, if_neg (by decide)] at hstatus
  have hfilter := body_ofRun bodyThen s edits (.deny status)
  rw [hbody] at hfilter
  unfold dynResponse denyResponse bodyResponse
  rw [outcomeResponse_of_no_body hfilter (by rw [hstatus]; exact hrange), hstatus, hbody, if_pos hrange]
  by_cases h204 : status = 204
  . subst h204
    have htext : textBytes (statusText 204) ≠ [] := by
      decide
    simp [SameResponse, Ne.symm htext]
  . rw [if_neg h204]
    simp only [h204, ne_eq, not_false_eq_true, true_and, SameResponse, Option.getD_none]
    constructor
    . intro h
      apply HeaderMap.eq_singleton_of_getAll
      intro name
      exact (h name).symm
    . intro h name
      rw [h]

end sameResponse

theorem shortCircuitsAlike_iff (syn : HttpSyntax) {code : Int} {d : Decision}
    (hcode : Decision.fromAbi code = some d) (hterminal : d.isTerminal = true) (bodyThen : Option Bytes)
    {s : SessionState} {edits : List HeaderEdit} (hheaders : s.respHeaders = finalHeaders [] edits)
    : (∃ resp, shortCircuit syn d s = some resp
        ∧ SameResponse (dynResponse syn d bodyThen s edits) resp)
        ↔
      AnsweredAlike syn d bodyThen s := by
  unfold shortCircuit AnsweredAlike
  rw [hasBody_eq_isSome]
  cases d with
  | ok => cases hterminal
  | declined => cases hterminal
  | done =>
    simp only [Option.some.injEq, exists_eq_left']
    cases hbody : carriedBody s with
    | some body =>
      simp only [Option.isSome_some, true_or, iff_true]
      exact dynResponse_done_of_body hheaders hbody
    | none =>
      rw [dynResponse_done_of_no_body hbody]
      simp
  | deny status =>
    have hrange : isStatus status = true := by
      have := Decision.range_of_fromAbi hcode
      simp only [isStatus, decide_eq_true_eq]
      omega
    simp only [Option.some.injEq, exists_eq_left']
    cases hbody : carriedBody s with
    | some body =>
      rw [dynResponse_deny_of_body hrange hheaders hbody]
      simp
    | none =>
      rw [dynResponse_deny_of_no_body hrange hbody]
      simp

theorem outcomeResponse_outcome {γ ω : Type} {r : DynRun γ ω} {d : Decision} (h : r.terminal = some d)
    : outcomeResponse syn r.outcome
      = dynResponse syn d r.decided.state.respBody r.finished.state r.finished.takeHeaderEdits.1 := by
  unfold DynRun.outcome dynResponse
  rw [h]

section scripted

def contentRun (calls : List RespCall) (code : Int) : DynRun Unit Unit :=
  DynRun.run
    { name := "answer"
      module := .scripted (fun phase => if phase = .content then calls else [])
        fun phase => if phase = .content then code else 0
      settings := []
      timeout := 50
      failPolicy := .failClosed
      memoryMb := 16 }
    .empty [] { outside := (), errors := ∅ }

theorem contentRun_headers (calls : List RespCall) (code : Int)
    : (contentRun calls code).finished.state.respHeaders
      = finalHeaders [] (contentRun calls code).finished.takeHeaderEdits.1 := by
  apply DynRun.run_headers
  apply WasmModule.writesByCalls_scripted

def greeting : List RespCall :=
  [.headerSet (some "X-Model") (some "small"), .headerSet (some "content-type") (some "text/html"),
    .headerSet (some "x-model") (some "big"), .bodySet (some [104, 105])]

theorem greeting_alike
    : (contentRun greeting (-4)).terminal = some .done
      ∧ ∃ resp, shortCircuit .visible .done (contentRun greeting (-4)).finished.state = some resp
        ∧ SameResponse (outcomeResponse .visible (contentRun greeting (-4)).outcome) resp := by
  have hcode : Decision.fromAbi (-4) = some .done := by
    rfl
  have hterminal : (contentRun greeting (-4)).terminal = some .done := by
    decide
  refine ⟨hterminal, ?_⟩
  rw [outcomeResponse_outcome hterminal]
  apply (shortCircuitsAlike_iff .visible hcode rfl _ (contentRun_headers greeting (-4))).mpr
  left
  decide

def redirect : List RespCall := [.headerSet (some "location") (some "/login")]

theorem redirect_not_alike
    : (contentRun redirect 302).terminal = some (.deny 302)
      ∧ ¬∃ resp, shortCircuit .visible (.deny 302) (contentRun redirect 302).finished.state = some resp
        ∧ SameResponse (outcomeResponse .visible (contentRun redirect 302).outcome) resp := by
  refine ⟨by decide, ?_⟩
  rintro ⟨resp, hresp, -, -, hheaders⟩
  cases hresp
  have hlocation := hheaders "location"
  revert hlocation
  decide

end scripted

end OpenRusty
