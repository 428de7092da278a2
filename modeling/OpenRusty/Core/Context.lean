import Mathlib.Algebra.Group.Int.Defs
import Mathlib.Algebra.Group.Nat.Defs

/-!
This module contains the data that the proxy and the plugin host share (`context.rs`): socket
addresses with their text form, byte strings and the context of one request.
-/

namespace OpenRusty

abbrev Bytes := List UInt8

inductive IpAddr where
  | v4 (octets : BitVec 32)
  | v6 (octets : BitVec 128)
  deriving DecidableEq, Repr

namespace IpAddr

def octetsV4 (octets : BitVec 32) : List Nat :=
  [24, 16, 8, 0].map fun shift => (octets >>> shift).toNat % 2 ^ 8

def showV4 (octets : BitVec 32) : String :=
  ".".intercalate ((octetsV4 octets).map toString)

def segmentsV6 (octets : BitVec 128) : List Nat :=
  [112, 96, 80, 64, 48, 32, 16, 0].map fun shift => (octets >>> shift).toNat % 2 ^ 16

def showSegments (segments : List Nat) : String :=
  ":".intercalate (segments.map fun segment => String.ofList (Nat.toDigits 16 segment))

def longestZeros (segments : List Nat) : Nat × Nat :=
  go 0 (0, 0) (0, 0) segments
where
  go (i : Nat) (longest current : Nat × Nat) (segments : List Nat) : Nat × Nat :=
    match segments with
    | [] => longest
    | segment :: segments =>
      if segment = 0 then
        let current := if current.2 = 0 then (i, 1) else (current.1, current.2 + 1)
        go (i + 1) (if longest.2 < current.2 then current else longest) current segments
      else
        go (i + 1) longest (0, 0) segments

def showV6 (octets : BitVec 128) : String :=
  let segments := segmentsV6 octets
  if segments.take 6 = [0, 0, 0, 0, 0, 0xffff] then
    "::ffff:" ++ showV4 (octets.setWidth 32)
  else
    match longestZeros segments with
    | (start, length) =>
      if 1 < length then
        showSegments (segments.take start) ++ "::" ++ showSegments (segments.drop (start + length))
      else
        showSegments segments

def toString (ip : IpAddr) : String :=
  match ip with
  | .v4 octets => showV4 octets
  | .v6 octets => showV6 octets

end IpAddr

structure SocketAddr where
  ip : IpAddr
  port : BitVec 16
  deriving DecidableEq, Repr

def SocketAddr.toString (addr : SocketAddr) : String :=
  let port := ToString.toString addr.port.toNat
  match addr.ip with
  | .v4 octets => IpAddr.showV4 octets ++ ":" ++ port
  | .v6 octets => "[" ++ IpAddr.showV6 octets ++ "]:" ++ port

structure ReqCtx where
  method : String
  path : String
  query : String
  version : String
  clientAddr : SocketAddr
  headers : List (String × String)
  routeIndex : Option Nat
  upstream : Option String
  peerIndex : Option Nat
  attempts : Nat
  tried : List SocketAddr
  deriving DecidableEq, Repr

namespace ReqCtx

def empty : ReqCtx where
  method := ""
  path := ""
  query := ""
  version := ""
  clientAddr := { ip := .v4 0x7f000001, port := 0 }
  headers := []
  routeIndex := none
  upstream := none
  peerIndex := none
  attempts := 0
  tried := []

def isTried (ctx : ReqCtx) (addr : SocketAddr) : Bool := ctx.tried.contains addr

def markTried (ctx : ReqCtx) (addr : SocketAddr) : ReqCtx :=
  if ctx.isTried addr then ctx else { ctx with tried := ctx.tried ++ [addr] }

end ReqCtx

end OpenRusty
