import OpenRusty.Scheduler.Balancer
import OpenRusty.Scheduler.Choice
import OpenRusty.Sdk.Request
import OpenRusty.Sdk.Url

/-!
This module contains how the scheduler plugin finds the task of a request (`task_key`): the `extract`
setting names a parameter of the query, a segment of the path or a field of the body, the plugin reads it
through the host. Requests share an affinity record exactly if they carry the same value, however each of
them spells it.
-/

namespace OpenRusty
namespace Scheduler

inductive ExtractRule where
  | queryParam (param : String)
  | pathSegment (n : Nat)
  | bodyField (field : String)
  deriving DecidableEq, Repr

def afterPrefix (s p : String) : Option String :=
  if startsWith s p then some (String.ofList (s.toList.drop p.toList.length)) else none

def nonemptyText (s : String) : Option String := if s.isEmpty then none else some s

def parseExtract (cfg : String) : Option ExtractRule :=
  let cfg := trim cfg
  match afterPrefix cfg "query:" with
  | some param => (nonemptyText (trim param)).map .queryParam
  | none =>
    match afterPrefix cfg "path:" with
    | some n => do
      -- a `usize` of the guest has 32 bits
      let n := asU32 (← parseAsciiU64 (utf8 (trim n)))
      if n = 0 then none else some (.pathSegment n)
    | none =>
      match afterPrefix cfg "body:" with
      | some field => (nonemptyText (trim field)).map .bodyField
      | none => none

variable {σ : Type} (host : Imports σ)

def extractRule (s : σ) : Option ExtractRule × σ :=
  match Guest.cfg host "extract" s with
  | (cfg, s) => (cfg.bind parseExtract, s)

def keyOf (rule : ExtractRule) (s : σ) : Option String × σ :=
  match rule with
  | .queryParam param =>
    match Guest.reqMetaStr host "query" s with
    | (query, s) => (query.bind fun query => Url.queryParam query param, s)
  | .pathSegment n =>
    match Guest.reqMetaStr host "path" s with
    | (path, s) => (path.bind fun path => Url.pathSegment path n, s)
  | .bodyField field =>
    match Guest.reqBody host s with
    | (body, s) =>
      (body.bind fun body =>
        (jsonStringField body (utf8 field)).bind fun raw => nonemptyText (trim (Utf8.fromUtf8Lossy raw)), s)

def taskKey (s : σ) : Option String × σ :=
  match extractRule host s with
  | (none, s) => (none, s)
  | (some rule, s) => keyOf host rule s

section carries

variable (view : RequestView) (places : Nat → Place)

def ruleOf : Option ExtractRule := ((view.settings "extract").bind readableText).bind parseExtract

inductive Carries (view : RequestView) : ExtractRule → String → Prop where
  | query {param raw value pair : String} {before after : List String}
      (hfits : readableText view.ctx.query = some view.ctx.query)
      (hsplit : splitChar '&' view.ctx.query = before ++ pair :: after)
      (hfirst : ∀ p ∈ before, (Url.keyVal p).1 ≠ param)
      (hpair : Url.keyVal pair = (param, raw))
      (hspells : Url.Spells raw value)
    : Carries view (.queryParam param) value
  | path {n : Nat} {raw value : String}
      (hfits : readableText view.ctx.path = some view.ctx.path)
      (hsegment : ((splitChar '/' view.ctx.path).filter fun s => !s.isEmpty)[n]? = some raw)
      (hspells : Url.Spells raw value)
    : Carries view (.pathSegment (n + 1)) value
  | body {field text : String}
      (hfits : view.body.length ≤ maxReadLen)
      (htells : Tells view.body (utf8 field) (utf8 text))
      (hne : trim text ≠ "")
    : Carries view (.bodyField field) (trim text)

theorem extractRule_eq (n : Nat) : (extractRule (view.imports places) n).1 = ruleOf view := by
  unfold extractRule ruleOf
  dsimp only
  rw [cfg_text]

theorem affKey_inj {a b : String} : affKey (utf8 a) = affKey (utf8 b) ↔ a = b := by
  constructor
  . intro h
    have hbytes : utf8 a = utf8 b := List.append_cancel_left h
    rw [← Utf8.fromUtf8Lossy_toUTF8 a, ← Utf8.fromUtf8Lossy_toUTF8 b]
    exact congrArg Utf8.fromUtf8Lossy hbytes
  . rintro rfl
    rfl

theorem length_peersFrom_le (idxs : List Nat) (s : σ) : (Guest.peersFrom host idxs s).1.length ≤ idxs.length := by
  induction idxs generalizing s with
  | nil => exact Nat.le_refl 0
  | cons idx idxs ih =>
    have hrest := ih (Guest.peerAt host idx s).2
    have hone : (Guest.peerAt host idx s).1.toList.length ≤ 1 := by
      cases (Guest.peerAt host idx s).1 <;> simp
    rw [Guest.peersFrom]
    simp only [List.length_append, List.length_cons]
    omega

theorem length_peers_le (n : Nat) : (Guest.peers (view.imports places) n).1.length ≤ i32Max := by
  have hcount : (view.imports places).reqPeerCount.toNat ≤ i32Max := by
    change (asI32 view.peers.length).toNat ≤ i32Max
    unfold asI32
    split <;> omega
  unfold Guest.peers
  split
  . exact Nat.zero_le _
  . have hlen := length_peersFrom_le (view.imports places)
      (List.range (view.imports places).reqPeerCount.toNat) n
    rw [List.length_range] at hlen
    exact Nat.le_trans hlen hcount

def requestOf (n : Nat) : Request where
  task := (taskKey (view.imports places) n).1.map utf8
  peers :=
    { list := (Guest.peers (view.imports places) (taskKey (view.imports places) n).2).1.map fun peer =>
        { healthy := peer.healthy }
      length_le := by
        rw [List.length_map]
        exact length_peers_le view places _ }

def LooksUp (value : String) (n : Nat) : Prop :=
  ∃ peers : Peers, start (.balancer (requestOf view places n)) = .getAff (utf8 value) peers
    ∧ peers.list = (view.peers.filter fun peer => (peerPayload peer).length ≤ maxReadLen).map fun peer =>
        { healthy := peer.healthy }

def byTask : String → Option String := fun key => if key = "extract" then some " query:task " else none

def viewOf (query : String) : RequestView where
  ctx := { ReqCtx.empty with query := query }
  body := []
  peers := []
  settings := byTask

def saltedView : RequestView where
  ctx := ReqCtx.empty
  body := saltedBody
  peers := []
  settings key := if key = "extract" then some "body:cache_salt" else none

end carries

end Scheduler
end OpenRusty
