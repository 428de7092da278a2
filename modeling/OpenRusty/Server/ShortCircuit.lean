import OpenRusty.Core.Http
import OpenRusty.Wasm.Dynamic

/-!
This module contains the responses that plugins decide on without a peer: the short circuit of the proxy
pipeline (`resp_shortcut.rs`) and the response to the outcome of a dynamic module (`dynamic_api.rs`). A
builder that was given a status outside of its range does not build.
-/

namespace OpenRusty

def isStatus (status : Nat) : Bool := decide (100 ≤ status ∧ status < 1000)

def textPlain : String × String := ("content-type", "text/plain; charset=utf-8")

def textBytes (msg : String) : Bytes := msg.toUTF8.data.toList

def emptyResponse (status : Nat) : HttpResponse :=
  if isStatus status then { status := status } else { status := 200 }

def textResponse (status : Nat) (msg : String) : HttpResponse :=
  if isStatus status then
    { status := status, headers := [textPlain], body := textBytes msg }
  else
    emptyResponse 500

def statusText (status : Nat) : String := ToString.toString status ++ "\n"

def carriedBody (s : SessionState) : Option Bytes := s.respBody.filter fun b => !b.isEmpty

def hasContentType (headers : List (String × String)) : Bool :=
  headers.any fun h => eqIgnoreAsciiCase h.1 "content-type"

variable (syn : HttpSyntax)

def withPluginHeaders (headers : List (String × String)) (defaultContentType : Bool) : HeaderMap :=
  let applied := headers.filter fun h => !eqIgnoreAsciiCase h.1 "content-length"
  let built := HeaderMap.ofPairs syn applied
  if defaultContentType && !hasContentType headers then
    built.append textPlain.1 textPlain.2
  else
    built

def bodyResponse (s : SessionState) (status : Nat) (body : Bytes) : HttpResponse :=
  if isStatus status then
    { status := status, headers := withPluginHeaders syn s.respHeaders true, body := body }
  else
    emptyResponse 500

def doneResponse (s : SessionState) : HttpResponse :=
  match carriedBody s with
  | some body => bodyResponse syn s 200 body
  | none => { status := 204, headers := withPluginHeaders syn s.respHeaders false }

def denyResponse (s : SessionState) (status : Nat) : HttpResponse :=
  bodyResponse syn s status ((carriedBody s).getD (textBytes (statusText status)))

/-- The status that a request is logged with after `done`. -/
def logStatus (s : SessionState) (fallback : Nat) : Nat :=
  if (carriedBody s).isSome then 200 else fallback

def shortCircuit (d : Decision) (s : SessionState) : Option HttpResponse :=
  match d with
  | .deny status => some (denyResponse syn s status)
  | .done => some (doneResponse syn s)
  | _ => none

def outcomeResponse (outcome : DynOutcome) : HttpResponse :=
  match outcome.body.filter fun b => !b.isEmpty with
  | none =>
    if outcome.status = 204 then
      emptyResponse 204
    else
      textResponse outcome.status (statusText outcome.status)
  | some body =>
    if isStatus outcome.status then
      { status := outcome.status
        headers := withPluginHeaders syn outcome.headers true
        body := body }
    else
      textResponse 500 "500 bad response\n"

end OpenRusty
