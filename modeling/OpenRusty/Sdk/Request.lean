import OpenRusty.Lib.Utf8
import OpenRusty.Sdk.TwoPhase
import OpenRusty.Wasm.Request

/-!
This module contains the view that a guest has of its request (`host.rs` of the SDK) over the payloads of
the host: the metadata, the settings and the peers, each read with the growing buffer. What does not fit
into the memory of the guest is not there for it, so such a peer is missing and the ones behind it move up.
-/

namespace OpenRusty

structure RequestView where
  ctx : ReqCtx
  body : Bytes
  peers : List PeerView
  settings : String → Option String

structure Place where
  before : Bytes
  after : Bytes
  before_le : before.length ≤ i32Max

def Place.call (p : Place) (payload : Option Bytes) : HostCall :=
  { payload := payload, before := p.before, after := p.after, before_le := p.before_le }

structure Imports (σ : Type) where
  reqMeta : String → Bytes → σ → Int × Bytes × σ
  reqPeerCount : Int
  reqPeerGet : Int → Bytes → σ → Int × Bytes × σ
  cfgGet : String → Bytes → σ → Int × Bytes × σ

def RequestView.imports (view : RequestView) (places : Nat → Place) : Imports Nat where
  reqMeta key := HostCall.read fun n => (places n).call (some (reqMetaPayload view.ctx view.body key))
  reqPeerCount := asI32 view.peers.length
  reqPeerGet idx :=
    match if idx < 0 then none else view.peers[idx.toNat]? with
    | none => fun buf n => (noPeer, buf, n + 1)
    | some peer => HostCall.read fun n => (places n).call (some (peerPayload peer))
  cfgGet key := HostCall.read fun n => (places n).call ((view.settings key).map utf8)

namespace Guest

variable {σ : Type} (host : Imports σ)

def nonempty (bytes : Bytes) : Option Bytes := if bytes.isEmpty then none else some bytes

def reqMeta (key : String) (s : σ) : Option Bytes × σ :=
  match readTwoPhase (host.reqMeta key) s with
  | (out, s) => (out.bind nonempty, s)

def reqMetaStr (key : String) (s : σ) : Option String × σ :=
  match reqMeta host key s with
  | (out, s) => (out.map Utf8.fromUtf8Lossy, s)

def reqBody (s : σ) : Option Bytes × σ := reqMeta host "body" s

def cfg (key : String) (s : σ) : Option String × σ :=
  match readTwoPhase (host.cfgGet key) s with
  | (out, s) => ((out.bind nonempty).map Utf8.fromUtf8Lossy, s)

structure PeerInfo where
  name : String
  addr : String
  healthy : Bool
  deriving DecidableEq, Repr

def peerFromTlv (tlv : Bytes) : PeerInfo :=
  let items := parseTlv tlv
  let text (i : Nat) : String := (items[i]?.map Utf8.fromUtf8Lossy).getD ""
  { name := text 0, addr := text 1, healthy := items[2]? == some (utf8 "1") }

def peerAt (idx : Int) (s : σ) : Option PeerInfo × σ :=
  match readTwoPhase (host.reqPeerGet idx) s with
  | (tlv, s) => (tlv.map peerFromTlv, s)

def peersFrom (idxs : List Nat) (s : σ) : List PeerInfo × σ :=
  match idxs with
  | [] => ([], s)
  | idx :: idxs =>
    match peerAt host idx s with
    | (peer, s) =>
      match peersFrom idxs s with
      | (peers, s) => (peer.toList ++ peers, s)

def peers (s : σ) : List PeerInfo × σ :=
  if host.reqPeerCount ≤ 0 then ([], s) else peersFrom host (List.range host.reqPeerCount.toNat) s

end Guest

section agree

open Guest

variable (view : RequestView) (places : Nat → Place)

def readable (payload : Bytes) : Option Bytes := if payload.length ≤ maxReadLen then some payload else none

theorem read_of_calls (calls : Nat → HostCall) (payload : Bytes) (h : ∀ n, (calls n).held = payload) (n : Nat)
    : (readTwoPhase (HostCall.read calls) n).1 = readable payload := by
  unfold readable
  by_cases hlen : payload.length ≤ maxReadLen
  . obtain ⟨t, hread, -⟩ := (HostCall.read_serves calls hlen h).readTwoPhase_eq (s := n) trivial hlen
    rw [hread, if_pos hlen]
  . rw [if_neg hlen]
    have hstart : (List.replicate startLen (0 : UInt8)).length = startLen := List.length_replicate
    have hsmall : (calls n).answer (List.replicate startLen 0) = (requiredLen payload, List.replicate startLen 0) := by
      rw [HostCall.answer_too_small (calls n) (by rw [hstart]; decide), h]
      rw [hstart, h]
      unfold maxReadLen at hlen
      unfold startLen
      omega
    have hneed : requiredLen payload < 0 ∧ maxReadLen < (-requiredLen payload).toNat := by
      change -((min payload.length i32Max : Nat) : Int) < 0
        ∧ maxReadLen < (- -((min payload.length i32Max : Nat) : Int)).toNat
      unfold maxReadLen at hlen ⊢
      unfold i32Max
      omega
    unfold readTwoPhase readTwoPhase.go HostCall.read
    rw [hsmall]
    dsimp only
    rw [if_neg (by omega), if_pos]
    simp [hneed.2]

theorem reqMeta_eq (key : String) (n : Nat)
    : (reqMeta (view.imports places) key n).1 = (readable (reqMetaPayload view.ctx view.body key)).bind nonempty := by
  have h := read_of_calls (fun n => (places n).call (some (reqMetaPayload view.ctx view.body key)))
    (reqMetaPayload view.ctx view.body key) (fun _ => rfl) n
  unfold reqMeta
  dsimp only
  rw [← h]
  rfl

theorem cfg_eq (key : String) (n : Nat)
    : (cfg (view.imports places) key n).1
        = ((readable (((view.settings key).map utf8).getD [])).bind nonempty).map Utf8.fromUtf8Lossy := by
  have h := read_of_calls (fun n => (places n).call ((view.settings key).map utf8))
    (((view.settings key).map utf8).getD []) (fun _ => rfl) n
  unfold cfg
  dsimp only
  rw [← h]
  rfl

def readableText (text : String) : Option String :=
  if utf8 text ≠ [] ∧ (utf8 text).length ≤ maxReadLen then some text else none

theorem readable_text (text : String)
    : ((readable (utf8 text)).bind nonempty).map Utf8.fromUtf8Lossy = readableText text := by
  unfold readable readableText nonempty
  by_cases hlen : (utf8 text).length ≤ maxReadLen
  . rw [if_pos hlen, Option.bind_some]
    cases hbytes : utf8 text with
    | nil => simp
    | cons b bytes =>
      have htext : Utf8.fromUtf8Lossy (b :: bytes) = text := by
        rw [← hbytes]
        exact Utf8.fromUtf8Lossy_toUTF8 text
      rw [hbytes] at hlen
      rw [List.length_cons] at hlen
      simp [htext, hlen]
  . simp [hlen]

theorem reqMetaStr_eq (key text : String) (h : reqMetaPayload view.ctx view.body key = utf8 text) (n : Nat)
    : (reqMetaStr (view.imports places) key n).1 = readableText text := by
  unfold reqMetaStr
  dsimp only
  rw [reqMeta_eq, h, readable_text]

def asInfo (peer : PeerView) : PeerInfo := { name := peer.name, addr := peer.addr, healthy := peer.healthy }

theorem peerFromTlv_peerPayload {peer : PeerView} (h : (peerPayload peer).length ≤ maxReadLen)
    : peerFromTlv (peerPayload peer) = asInfo peer := by
  rw [length_peerPayload] at h
  unfold maxReadLen at h
  have hparse : parseTlv (peerPayload peer)
      = [utf8 peer.name, utf8 peer.addr, utf8 (if peer.healthy then "1" else "0")] := by
    apply parseTlv_encodeTlv
    intro item hitem
    simp only [List.mem_cons, List.not_mem_nil, or_false] at hitem
    rcases hitem with rfl | rfl | rfl
    . omega
    . omega
    . cases peer.healthy <;> decide +kernel
  have hread : ∀ text, Utf8.fromUtf8Lossy (utf8 text) = text := Utf8.fromUtf8Lossy_toUTF8
  unfold peerFromTlv asInfo
  rw [hparse]
  cases peer.healthy with
  | true => simp [hread]
  | false =>
    have hne : (utf8 "0" == utf8 "1") = false := by decide +kernel
    simp [hread, hne]

theorem peerAt_eq {idx : Nat} {peer : PeerView} (h : view.peers[idx]? = some peer) (n : Nat)
    : (peerAt (view.imports places) idx n).1
        = if (peerPayload peer).length ≤ maxReadLen then some (asInfo peer) else none := by
  have hget : (view.imports places).reqPeerGet idx
      = HostCall.read fun n => (places n).call (some (peerPayload peer)) := by
    unfold RequestView.imports
    dsimp only
    rw [if_neg (by omega), Int.toNat_natCast, h]
  have hread := read_of_calls (fun n => (places n).call (some (peerPayload peer))) (peerPayload peer) (fun _ => rfl) n
  unfold peerAt
  rw [hget]
  dsimp only
  rw [hread]
  unfold readable
  split
  . next hlen => rw [Option.map_some, peerFromTlv_peerPayload hlen]
  . rfl

theorem peersFrom_eq (k : Nat) {rest : List PeerView} (h : view.peers.drop k = rest) (n : Nat)
    : (peersFrom (view.imports places) (List.range' k rest.length) n).1
        = (rest.filter fun peer => (peerPayload peer).length ≤ maxReadLen).map asInfo := by
  induction rest generalizing k n with
  | nil => rfl
  | cons peer rest ih =>
    have hpeer : view.peers[k]? = some peer := by
      rw [← List.head?_drop, h]
      rfl
    have hrest : view.peers.drop (k + 1) = rest := by
      rw [← List.drop_drop, h]
      rfl
    rw [List.length_cons, List.range'_succ, peersFrom]
    dsimp only
    rw [peerAt_eq view places hpeer, ih (k + 1) hrest, List.filter_cons]
    by_cases hlen : (peerPayload peer).length ≤ maxReadLen
    . simp [hlen]
    . simp [hlen]

theorem peers_eq (hcount : view.peers.length ≤ i32Max) (n : Nat)
    : (peers (view.imports places) n).1
        = (view.peers.filter fun peer => (peerPayload peer).length ≤ maxReadLen).map asInfo := by
  have hreq : (view.imports places).reqPeerCount = view.peers.length := asI32_eq hcount
  unfold peers
  rw [hreq]
  split
  . next hnone =>
    have hnil : view.peers = [] := List.length_eq_zero_iff.mp (by omega)
    rw [hnil]
    rfl
  . rw [Int.toNat_natCast, List.range_eq_range']
    exact peersFrom_eq view places 0 rfl n

def textKeys (ctx : ReqCtx) : List (String × String) :=
  [("method", ctx.method), ("path", ctx.path), ("query", ctx.query), ("version", ctx.version),
    ("client_ip", ctx.clientIp), ("upstream", ctx.upstream.getD "")]

theorem payload_of_textKeys {ctx : ReqCtx} {body : Bytes} {k : String × String} (h : k ∈ textKeys ctx)
    : reqMetaPayload ctx body k.1 = utf8 k.2 := by
  simp only [textKeys, List.mem_cons, List.not_mem_nil, or_false] at h
  rcases h with rfl | rfl | rfl | rfl | rfl | rfl <;> rfl

theorem cfg_text (key : String) (n : Nat)
    : (cfg (view.imports places) key n).1 = (view.settings key).bind readableText := by
  rw [cfg_eq]
  cases view.settings key with
  | none => rfl
  | some value => exact readable_text value

theorem headers_of_read {ctx : ReqCtx} {body tlv : Bytes} (h : readable (reqMetaPayload ctx body "headers") = some tlv)
    : parseTlv tlv = ctx.headers.map headerItem := by
  unfold readable at h
  split at h
  . next hlen =>
    cases h
    apply parseTlv_encodeTlv
    intro item hitem
    have hle : item.length ≤ (encodeTlv (ctx.headers.map headerItem)).length := by
      obtain ⟨before, after, hsplit⟩ := List.append_of_mem hitem
      rw [hsplit, encodeTlv, List.flatMap_append, List.flatMap_cons, List.length_append, List.length_append,
        length_encodeItem]
      omega
    have hmax : (encodeTlv (ctx.headers.map headerItem)).length ≤ maxReadLen := hlen
    unfold maxReadLen at hmax
    omega
  . cases h

def readableHeaders (ctx : ReqCtx) : Option (List Bytes) :=
  if ctx.headers ≠ [] ∧ (encodeTlv (ctx.headers.map headerItem)).length ≤ maxReadLen then
    some (ctx.headers.map headerItem)
  else
    none

theorem headers_eq (n : Nat)
    : (reqMeta (view.imports places) "headers" n).1.map parseTlv = readableHeaders view.ctx := by
  have hpayload : reqMetaPayload view.ctx view.body "headers" = encodeTlv (view.ctx.headers.map headerItem) := rfl
  unfold readableHeaders
  rw [reqMeta_eq]
  by_cases hlen : (encodeTlv (view.ctx.headers.map headerItem)).length ≤ maxReadLen
  . have hread : readable (reqMetaPayload view.ctx view.body "headers")
        = some (encodeTlv (view.ctx.headers.map headerItem)) := by
      rw [hpayload, readable, if_pos hlen]
    have hparse := headers_of_read hread
    rw [hread, Option.bind_some]
    cases hheaders : view.ctx.headers with
    | nil => rfl
    | cons header headers =>
      rw [hheaders] at hparse hlen
      have hne : ¬(encodeTlv ((header :: headers).map headerItem)).isEmpty = true := by
        rw [List.map_cons, encodeTlv, List.flatMap_cons, List.isEmpty_iff_length_eq_zero, List.length_append,
          length_encodeItem]
        omega
      rw [nonempty, if_neg hne, Option.map_some, hparse, if_pos ⟨List.cons_ne_nil _ _, hlen⟩]
  . have hread : readable (reqMetaPayload view.ctx view.body "headers") = none := by
      rw [hpayload, readable, if_neg hlen]
    rw [hread, if_neg fun h => hlen h.2]
    rfl

theorem aligned_iff (peers : List PeerView)
    : (∀ i : Nat, ((peers.filter fun peer => (peerPayload peer).length ≤ maxReadLen).map asInfo)[i]?
          = (peers[i]?).map asInfo)
      ↔ ∀ peer ∈ peers, (peerPayload peer).length ≤ maxReadLen := by
  constructor
  . intro h
    have hlen : (peers.filter fun peer => (peerPayload peer).length ≤ maxReadLen).length = peers.length := by
      have heq : (peers.filter fun peer => (peerPayload peer).length ≤ maxReadLen).map asInfo = peers.map asInfo := by
        apply List.ext_getElem?
        intro i
        rw [h i, List.getElem?_map]
      simpa using congrArg List.length heq
    intro peer hpeer
    simpa using List.length_filter_eq_length_iff.mp hlen peer hpeer
  . intro h i
    rw [List.filter_eq_self.mpr (fun peer hpeer => by simpa using h peer hpeer), List.getElem?_map]

def onePeerView : RequestView where
  ctx := { ReqCtx.empty with path := "/v1" }
  body := [0x7b, 0x7d]
  peers := [{ name := "a", addr := "10.0.0.1:80", healthy := true }]
  settings := fun key => if key = "affinity_ttl_s" then some "60" else none

def noPlace : Place where
  before := []
  after := []
  before_le := Nat.zero_le _

end agree

end OpenRusty
