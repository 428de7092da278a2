import OpenRusty.K8s.Render.Basic

/-!
This module contains the rendering of the TLS material (`render/tls.rs`): the hosts come from the TLS
sections of the Ingresses, the certificates and keys from the Secrets. The decoding of the values of a
Secret is a parameter.
-/

namespace OpenRusty

structure Secret where
  metadata : ObjectMeta := {}
  type : Option String := none
  data : List (String × String) := []
  deriving DecidableEq, Repr

instance : ResourceMeta Secret where
  nspace secret := secret.metadata.nspace
  name secret := secret.metadata.name
  resourceVersion secret := secret.metadata.resourceVersion

def tlsType : String := "kubernetes.io/tls"

structure TlsPair where
  certPem : String
  keyPem : String
  deriving DecidableEq, Repr

structure TlsClaims where
  out : AList fun _ : String => TlsPair
  claims : AList fun _ : String => String

namespace TlsClaims

def empty : TlsClaims := { out := ∅, claims := ∅ }

def claim (here : String) (pair : TlsPair) (t : TlsClaims) (host : String)
    : Except RenderError TlsClaims :=
  let key := normalizeHost host
  if key.isEmpty then
    .ok t
  else
    match t.out.lookup key with
    | some existing =>
      if existing = pair then
        .ok { t with out := t.out.insert key pair }
      else
        .error (.tlsHostConflict key ((t.claims.lookup key).getD "") here)
    | none => .ok { out := t.out.insert key pair, claims := t.claims.insert key here }

end TlsClaims

variable (decode : String → Except String Bytes)

def decodeField (secret : Secret) (field : String) : Except String (Option String) :=
  match secret.data.lookup field with
  | none => .ok none
  | some value =>
    match decode value with
    | .error e => .error ("bad base64: " ++ e)
    | .ok bytes =>
      match String.fromUTF8? (ByteArray.mk bytes.toArray) with
      | none => .error "decoded bytes are not UTF-8"
      | some pem => .ok (some pem)

def requireField (owner : String) (secret : Secret) (field : String) : Except RenderError String :=
  let fail := RenderError.secretPem owner secret.metadata.nspace secret.metadata.name field
  match decodeField decode secret field with
  | .error reason => .error (fail reason)
  | .ok none => .error (fail "missing data key")
  | .ok (some pem) => .ok pem

def decodeTlsSecret (owner : String) (secret : Secret) : Except RenderError TlsPair := do
  let ns := secret.metadata.nspace
  let name := secret.metadata.name
  if secret.type ≠ some tlsType then
    throw (.secretNotTls owner ns name (secret.type.getD ""))
  let cert ← requireField decode owner secret "tls.crt"
  let key ← requireField decode owner secret "tls.key"
  if isBlank cert then
    throw (.secretPem owner ns name "tls.crt" "PEM is empty")
  if isBlank key then
    throw (.secretPem owner ns name "tls.key" "PEM is empty")
  return { certPem := cert, keyPem := key }

def renderTlsSection (secrets : Snapshot Secret) (owner ns : String) (t : TlsClaims) (tls : IngressTls)
    : Except RenderError TlsClaims :=
  match tls.secretName with
  | none => .ok t
  | some secretName =>
    match secrets.items.lookup (ns, secretName) with
    | none => .error (.secretMissing owner ns secretName)
    | some secret => do
      let pair ← decodeTlsSecret decode owner secret
      let here := owner ++ " (secret " ++ ns ++ "/" ++ secretName ++ ")"
      tls.hosts.foldlM (TlsClaims.claim here pair) t

def renderTls (ingresses : Snapshot Ingress) (secrets : Snapshot Secret) (ingressClass : String)
    : Except RenderError (AList fun _ : String => TlsPair) := do
  let adopted := ingresses.iter.filter fun e => e.2.spec.ingressClassName == some ingressClass
  let t ← adopted.foldlM
    (fun t e =>
      let owner := "ingress " ++ e.1.1 ++ "/" ++ e.1.2
      e.2.spec.tls.foldlM (renderTlsSection decode secrets owner e.1.1) t)
    TlsClaims.empty
  return t.out

end OpenRusty
