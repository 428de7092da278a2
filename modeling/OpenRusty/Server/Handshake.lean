import OpenRusty.Proxy.Forward
import OpenRusty.Server.Route
import OpenRusty.Wasm.Rewrite

/-!
This module contains the two requests that are built for a peer: the one of the proxy path
(`pipeline/mod.rs`), which is made from the context that the plugins leave, and the handshake of the
WebSocket path (`ws.rs`), which is made from the request of the client.
-/

namespace OpenRusty

def reqCtx (req : HttpRequest) (remote : SocketAddr) (routing : Option Nat × Option String)
    : ReqCtx where
  method := req.method
  path := req.uri.path
  query := req.uri.query.getD ""
  version := req.versionStr
  clientAddr := remote
  headers := foldH2Authority req.textHeaders req.uri.authority
  routeIndex := routing.1
  upstream := routing.2
  peerIndex := none
  attempts := 0
  tried := []

def fwdPathAndQuery (ctx : ReqCtx) : String :=
  if ctx.query.isEmpty then ctx.path else ctx.path ++ "?" ++ ctx.query

def forwardRequest (req : HttpRequest) (remote : SocketAddr) (ctx : ReqCtx) (body : Bytes)
    : ForwardRequest where
  method := req.method
  pathAndQuery := fwdPathAndQuery ctx
  headers := ctx.headers
  body := body
  clientIp := remote.ip.toString

def handshakeHeaders (clientHeaders : List (String × String)) (peerAddr clientIp : String)
    : List (String × String) :=
  ((stripHopByHop clientHeaders).filter fun h =>
      !(eqIgnoreAsciiCase h.1 "host" || eqIgnoreAsciiCase h.1 "x-forwarded-for"))
    ++ [ ("host", peerAddr), ("connection", "upgrade"), ("upgrade", "websocket"),
         ("x-forwarded-for", mergeXff clientHeaders clientIp) ]

/-- The peer as the beginning of a URI. `tls` is the server name of an upstream that is reached by TLS. -/
def peerTarget (tls : Option String) (peer : SocketAddr) : String :=
  match tls with
  | some serverName => "https" ++ "://" ++ serverName
  | none => "http" ++ "://" ++ peer.toString

variable (syn : HttpSyntax)

/-- A request that is refused before anything is sent has no handshake. -/
def handshake (tls : Option String) (peer : SocketAddr) (req : HttpRequest) (ctx : ReqCtx)
    : Option Outgoing :=
  if req.version = .http2 then
    none
  else
    let uri := peerTarget tls peer ++ req.uri.pathAndQuery
    if syn.uri uri then
      let clientIp := ctx.clientAddr.ip.toString
      let headers := handshakeHeaders req.textHeaders peer.toString clientIp
      some { method := req.method, uri := uri, headers := .ofPairs syn headers, body := [] }
    else
      none

end OpenRusty
