import OpenRusty.Core.Http

/-!
This module contains the request that is sent to a peer (`forward.rs`, `upstream.rs`): which headers are
passed on, how the address of the client is added to them, and when a request that failed may be sent
again to another peer. The transport itself is not part of it.
-/

namespace OpenRusty

inductive FailureKind where
  | connect
  | sent
  | response
  | timeout
  deriving DecidableEq, Repr

inductive ForwardError where
  | connect
  | send
  | response
  deriving DecidableEq, Repr

def failureKind (err : ForwardError) : FailureKind :=
  match err with
  | .connect => .connect
  | .send => .sent
  | .response => .response

def isIdempotent (method : String) : Bool := ["GET", "HEAD", "OPTIONS", "TRACE"].contains method

def mayRetry (method : String) (kind : FailureKind) : Bool :=
  if isIdempotent method then
    kind == .connect || kind == .sent || kind == .timeout
  else
    kind == .connect

def hopByHop : List String :=
  [ "connection", "keep-alive", "proxy-authenticate", "proxy-authorization", "te", "trailer", "upgrade",
    "transfer-encoding" ]

def isHopByHop (name : String) : Bool := hopByHop.any fun h => eqIgnoreAsciiCase h (trim name)

def stripHopByHop (headers : List (String × String)) : List (String × String) :=
  headers.filter fun h => !isHopByHop h.1

def headerValue (headers : List (String × String)) (name : String) : Option String :=
  (headers.find? fun h => eqIgnoreAsciiCase h.1 name).map Prod.snd

def tokens (value : String) : List String :=
  (value.toList.splitOn ',').map fun t => toAsciiLowercase (trim (String.ofList t))

def isWebsocketToken (token : String) : Bool :=
  trim (String.ofList (token.toList.takeWhile fun c => c != ';')) == "websocket"

def isWebsocketUpgrade (method : String) (headers : List (String × String)) : Bool :=
  eqIgnoreAsciiCase method "GET"
    && ((headerValue headers "connection").any fun v => (tokens v).contains "upgrade")
    && ((headerValue headers "upgrade").any fun v => (tokens v).any isWebsocketToken)

def mergeXff (headers : List (String × String)) (clientIp : String) : String :=
  let parts := (headers.filter fun h => eqIgnoreAsciiCase h.1 "x-forwarded-for").map Prod.snd
  ", ".intercalate (parts ++ [clientIp])

structure ForwardRequest where
  method : String
  pathAndQuery : String
  headers : List (String × String)
  body : Bytes
  clientIp : String
  deriving DecidableEq, Repr

structure Outgoing where
  method : String
  uri : String
  headers : HeaderMap
  body : Bytes
  deriving DecidableEq, Repr

def isForwarded (name : String) : Bool :=
  !(isHopByHop name || eqIgnoreAsciiCase name "host" || eqIgnoreAsciiCase name "x-forwarded-for")

variable (syn : HttpSyntax)

def buildOutgoing (scheme uriAuthority host : String) (req : ForwardRequest)
    : Except ForwardError Outgoing :=
  let uri := scheme ++ "://" ++ uriAuthority ++ req.pathAndQuery
  if syn.uri uri then
    let headers := HeaderMap.ofPairs syn (req.headers.filter fun h => isForwarded h.1)
    let xff := mergeXff req.headers req.clientIp
    let headers := if syn.headerValue xff then headers.append "x-forwarded-for" xff else headers
    if syn.headerValue host then
      .ok { method := req.method, uri := uri, headers := headers.insert "host" host, body := req.body }
    else
      .error .send
  else
    .error .send

def forward (peer : SocketAddr) (req : ForwardRequest) : Except ForwardError Outgoing :=
  buildOutgoing syn "http" peer.toString peer.toString req

def forwardHttps (peer : SocketAddr) (serverName : String) (req : ForwardRequest)
    : Except ForwardError Outgoing :=
  buildOutgoing syn "https" serverName peer.toString req

/-- An upstream that is reached by TLS has the server name `tls`. -/
def forwardPeer (tls : Option String) (peer : SocketAddr) (req : ForwardRequest)
    : Except ForwardError Outgoing :=
  match tls with
  | some serverName => forwardHttps syn peer serverName req
  | none => forward syn peer req

end OpenRusty
