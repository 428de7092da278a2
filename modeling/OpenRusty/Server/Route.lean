import OpenRusty.Core.Config
import OpenRusty.Core.Text

/-!
This module contains the choice of the route for a request (`pipeline/mod.rs`): the host that the
request asks for, the class of routes that the host selects, and the precedence of the paths inside of
a class. Routes are chosen by their position in the list.
-/

namespace OpenRusty

def foldH2Authority (headers : List (String × String)) (authority : Option String)
    : List (String × String) :=
  if headers.any fun h => eqIgnoreAsciiCase h.1 "host" then
    headers
  else
    headers ++ authority.toList.map fun a => ("host", a)

def stripPort (raw : List Char) : List Char :=
  match raw.reverse.span fun c => c != ':' with
  | (port, _ :: host) => if port.all Char.isDigit then host.reverse else raw
  | (_, []) => raw

def requestHost (headers : List (String × String)) : Option String :=
  (headers.find? fun h => eqIgnoreAsciiCase h.1 "host").bind fun h =>
    match (trim h.2).toList with
    | [] => none
    | '[' :: rest => some (toAsciiLowercase (String.ofList (rest.takeWhile fun c => c != ']')))
    | raw => some (toAsciiLowercase (String.ofList (stripPort raw)))

def hostMatches (routeHost reqHost : Option String) : Bool :=
  match routeHost, reqHost with
  | none, _ => true
  | some _, none => false
  | some r, some h => eqIgnoreAsciiCase r h

structure PathHits where
  exact : Option Nat := none
  bestPrefix : Option (Nat × Nat) := none

def PathHits.push (path : String) (hits : PathHits) (cand : RouteConfig × Nat) : PathHits :=
  match cand with
  | (r, i) =>
    if r.exact then
      if hits.exact.isNone && r.pathPrefix == path then { hits with exact := some i } else hits
    else if path == r.pathPrefix || startsWith path r.pathPrefix then
      match hits.bestPrefix with
      | some (_, length) =>
        if len r.pathPrefix ≤ length then
          hits
        else
          { hits with bestPrefix := some (i, len r.pathPrefix) }
      | none => { hits with bestPrefix := some (i, len r.pathPrefix) }
    else
      hits

def pathInClass (cands : List (RouteConfig × Nat)) (path : String) : Option Nat :=
  let hits := cands.foldl (PathHits.push path) {}
  hits.exact.or (hits.bestPrefix.map Prod.fst)

def matchRoute (routes : List RouteConfig) (host : Option String) (path : String) : Option Nat :=
  let specific := routes.zipIdx.filter fun x => x.1.host.isSome && hostMatches x.1.host host
  let catchAll := routes.zipIdx.filter fun x => x.1.host.isNone
  (pathInClass specific path).or (pathInClass catchAll path)

end OpenRusty
