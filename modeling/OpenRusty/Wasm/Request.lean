import OpenRusty.Core.Text
import OpenRusty.Wasm.Session.Basic
import OpenRusty.Wasm.Tlv

/-!
This module contains what the host hands out about a request (`linker_req.rs`): the payloads of the request
metadata by key, and those of the peers.
-/

namespace OpenRusty

def utf8 (s : String) : Bytes := s.toUTF8.data.toList

namespace ReqCtx

def clientIp (ctx : ReqCtx) : String := ctx.clientAddr.ip.toString

def header (ctx : ReqCtx) (name : String) : Option String :=
  (ctx.headers.find? fun h => eqIgnoreAsciiCase h.1 name).map Prod.snd

end ReqCtx

def headerItem (h : String × String) : Bytes := utf8 (h.1 ++ ": " ++ h.2)

def headerKey (key : String) : Option String :=
  if startsWith key "header:" then some (String.ofList (key.toList.drop "header:".toList.length)) else none

/-- Unknown keys have an empty payload. -/
def reqMetaPayload (ctx : ReqCtx) (body : Bytes) (key : String) : Bytes :=
  match key with
  | "method" => utf8 ctx.method
  | "path" => utf8 ctx.path
  | "query" => utf8 ctx.query
  | "version" => utf8 ctx.version
  | "client_ip" => utf8 ctx.clientIp
  | "upstream" => utf8 (ctx.upstream.getD "")
  | "body" => body
  | "headers" => encodeTlv (ctx.headers.map headerItem)
  | key =>
    match headerKey key with
    | some name => ((ctx.header name).map utf8).getD []
    | none => []

def peerPayload (peer : PeerView) : Bytes :=
  encodeTlv [utf8 peer.name, utf8 peer.addr, utf8 (if peer.healthy then "1" else "0")]

def noPeer : Int := -2

theorem length_peerPayload (peer : PeerView)
    : (peerPayload peer).length = 13 + (utf8 peer.name).length + (utf8 peer.addr).length := by
  have hflag : (utf8 (if peer.healthy then "1" else "0")).length = 1 := by
    cases peer.healthy <;> rfl
  simp only [peerPayload, encodeTlv, List.flatMap_cons, List.flatMap_nil, List.length_append, length_encodeItem,
    List.length_nil, hflag]
  omega

end OpenRusty
