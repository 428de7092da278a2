import OpenRusty.Core.Context
import OpenRusty.Lib.LittleEndian

/-!
This module contains the list encoding of the plugin interface (`abi.rs`), every item behind its length
in four bytes, the decoder of the host, which refuses a list that is cut off, and the one of the guest
(`host.rs` of the SDK), which stops at the first item that is cut off. What the guest reads is a part at
the front of the list, and the host accepts the lists that the guest reads to their end.
-/

namespace OpenRusty

def encodeItem (item : Bytes) : Bytes := LittleEndian.toBytes 4 item.length ++ item

def encodeTlv (items : List Bytes) : Bytes := items.flatMap encodeItem

def encodeKvPair (key value : Bytes) : Bytes := encodeTlv [key, value]

def decodeTlv (buf : Bytes) : Option (List Bytes) :=
  go 0 []
where
  go (pos : Nat) (items : List Bytes) : Option (List Bytes) :=
    if pos < buf.length then
      if buf.length < pos + 4 then
        none
      else
        let len := LittleEndian.ofBytes ((buf.drop pos).take 4)
        if buf.length < pos + 4 + len then
          none
        else
          go (pos + 4 + len) (items ++ [(buf.drop (pos + 4)).take len])
    else
      some items
  termination_by buf.length - pos

def parseTlv (data : Bytes) : List Bytes :=
  if 4 ≤ data.length then
    let len := LittleEndian.ofBytes (data.take 4)
    let rest := data.drop 4
    if rest.length < len then
      []
    else
      rest.take len :: parseTlv (rest.drop len)
  else
    []
termination_by data.length
decreasing_by
  simp only [List.length_drop]
  omega

def parseTlvRest (data : Bytes) : Bytes :=
  if 4 ≤ data.length then
    let len := LittleEndian.ofBytes (data.take 4)
    let rest := data.drop 4
    if rest.length < len then
      data
    else
      parseTlvRest (rest.drop len)
  else
    data
termination_by data.length
decreasing_by
  simp only [List.length_drop]
  omega

def kvPairFromTlv (tlv : Bytes) : Bytes × Bytes :=
  let items := parseTlv tlv
  (items[0]?.getD [], items[1]?.getD [])

@[simp]
theorem length_encodeItem (item : Bytes) : (encodeItem item).length = 4 + item.length := by
  simp [encodeItem]

theorem length_encodeKvPair (key value : Bytes)
    : (encodeKvPair key value).length = 8 + key.length + value.length := by
  simp [encodeKvPair, encodeTlv]
  omega

@[simp]
theorem parseTlv_nil : parseTlv [] = [] := by
  rw [parseTlv]
  simp

theorem parseTlv_encodeItem {item : Bytes} (h : item.length < 2 ^ 32) (data : Bytes)
    : parseTlv (encodeItem item ++ data) = item :: parseTlv data := by
  have htake : (encodeItem item ++ data).take 4 = LittleEndian.toBytes 4 item.length := by
    rw [encodeItem, List.append_assoc]
    apply List.take_left'
    simp
  have hdrop : (encodeItem item ++ data).drop 4 = item ++ data := by
    rw [encodeItem, List.append_assoc]
    apply List.drop_left'
    simp
  have hlen : LittleEndian.ofBytes (LittleEndian.toBytes 4 item.length) = item.length := by
    rw [LittleEndian.ofBytes_toBytes]
    exact Nat.mod_eq_of_lt h
  rw [parseTlv, htake, hdrop, hlen, if_pos (by simp; omega), if_neg (by simp)]
  rw [List.take_left' rfl, List.drop_left' rfl]

theorem parseTlv_encodeTlv {items : List Bytes} (h : ∀ item ∈ items, item.length < 2 ^ 32)
    : parseTlv (encodeTlv items) = items := by
  induction items with
  | nil => exact parseTlv_nil
  | cons item items ih =>
    rw [encodeTlv, List.flatMap_cons, parseTlv_encodeItem (h item (by simp))]
    congr 1
    apply ih
    intro item' hitem'
    apply h
    simp [hitem']

section item

variable {data : Bytes} (h : 4 ≤ data.length)
  (hlen : LittleEndian.ofBytes (data.take 4) ≤ (data.drop 4).length)

include h hlen

theorem parseTlv_of_item
    : parseTlv data
        =
      (data.drop 4).take (LittleEndian.ofBytes (data.take 4))
        :: parseTlv ((data.drop 4).drop (LittleEndian.ofBytes (data.take 4))) := by
  rw [parseTlv, if_pos h]
  exact if_neg (Nat.not_lt_of_le hlen)

theorem parseTlvRest_of_item
    : parseTlvRest data = parseTlvRest ((data.drop 4).drop (LittleEndian.ofBytes (data.take 4))) := by
  rw [parseTlvRest, if_pos h]
  exact if_neg (Nat.not_lt_of_le hlen)

theorem encodeItem_take
    : encodeItem ((data.drop 4).take (LittleEndian.ofBytes (data.take 4)))
        ++ (data.drop 4).drop (LittleEndian.ofBytes (data.take 4))
        =
      data := by
  have hfour : (data.take 4).length = 4 := by
    rw [List.length_take]
    omega
  have hprefix := LittleEndian.toBytes_ofBytes (data.take 4)
  rw [hfour] at hprefix
  unfold encodeItem
  rw [List.length_take, Nat.min_eq_left hlen, hprefix, List.append_assoc, List.take_append_drop]
  exact List.take_append_drop 4 data

end item

theorem encodeTlv_parseTlv (data : Bytes) : encodeTlv (parseTlv data) ++ parseTlvRest data = data := by
  fun_induction parseTlv data with
  | case1 data hfour len rest hlen =>
    rw [parseTlvRest, if_pos hfour]
    exact if_pos hlen
  | case2 data hfour len rest hlen ih =>
    have hwhole := Nat.le_of_not_lt hlen
    rw [parseTlvRest_of_item hfour hwhole, encodeTlv, List.flatMap_cons, List.append_assoc]
    exact (congrArg _ ih).trans (encodeItem_take hfour hwhole)
  | case3 data hfour =>
    rw [parseTlvRest, if_neg hfour]
    rfl

theorem parseTlvRest_eq_nil_of_parseTlv {data : Bytes} (h : encodeTlv (parseTlv data) = data)
    : parseTlvRest data = [] := by
  have hsplit := encodeTlv_parseTlv data
  rw [h] at hsplit
  exact List.append_right_eq_self.mp hsplit

theorem decodeTlv_go (buf : Bytes) (pos : Nat) (items : List Bytes)
    : decodeTlv.go buf pos items
        =
      if parseTlvRest (buf.drop pos) = [] then some (items ++ parseTlv (buf.drop pos)) else none := by
  fun_induction decodeTlv.go buf pos items with
  | case1 pos items hpos hshort =>
    have hfour : ¬4 ≤ (buf.drop pos).length := by
      rw [List.length_drop]
      omega
    have hne : buf.drop pos ≠ [] := by
      intro hnil
      have := List.drop_eq_nil_iff.mp hnil
      omega
    rw [parseTlvRest, if_neg hfour, if_neg hne]
  | case2 pos items hpos hshort len hlen =>
    have hfour : 4 ≤ (buf.drop pos).length := by
      rw [List.length_drop]
      omega
    have hcut : ((buf.drop pos).drop 4).length < LittleEndian.ofBytes ((buf.drop pos).take 4) := by
      rw [List.length_drop, List.length_drop]
      omega
    have hne : buf.drop pos ≠ [] := by
      intro hnil
      have := List.drop_eq_nil_iff.mp hnil
      omega
    rw [parseTlvRest, if_pos hfour]
    dsimp only
    rw [if_pos hcut, if_neg hne]
  | case3 pos items hpos hshort len hlen ih =>
    have hfour : 4 ≤ (buf.drop pos).length := by
      rw [List.length_drop]
      omega
    have hwhole : LittleEndian.ofBytes ((buf.drop pos).take 4) ≤ ((buf.drop pos).drop 4).length := by
      rw [List.length_drop, List.length_drop]
      omega
    rw [ih, parseTlvRest_of_item hfour hwhole, parseTlv_of_item hfour hwhole]
    rw [List.drop_drop, List.drop_drop, List.drop_drop, Nat.add_assoc, List.append_assoc, List.singleton_append]
  | case4 pos items hpos =>
    have hnil : buf.drop pos = [] := List.drop_eq_nil_of_le (by omega)
    have hfour : ¬4 ≤ ([] : Bytes).length := by decide
    rw [hnil, parseTlvRest, if_neg hfour, if_pos rfl, parseTlv_nil, List.append_nil]

theorem decodeTlv_eq (buf : Bytes)
    : decodeTlv buf = if parseTlvRest buf = [] then some (parseTlv buf) else none := by
  unfold decodeTlv
  rw [decodeTlv_go, List.drop_zero, List.nil_append]

theorem decodeTlv_eq_some {buf : Bytes} {items : List Bytes} (h : decodeTlv buf = some items)
    : parseTlvRest buf = [] ∧ parseTlv buf = items := by
  rw [decodeTlv_eq] at h
  split at h
  . next hrest =>
    cases h
    exact ⟨hrest, rfl⟩
  . cases h

theorem kvPairFromTlv_encodeKvPair {key value : Bytes} (h : (encodeKvPair key value).length < 2 ^ 32)
    : kvPairFromTlv (encodeKvPair key value) = (key, value) := by
  rw [length_encodeKvPair] at h
  have hitems : ∀ item ∈ [key, value], item.length < 2 ^ 32 := by
    simp
    omega
  simp [kvPairFromTlv, encodeKvPair, parseTlv_encodeTlv hitems]

theorem tlv_codec_agrees
    : (∀ items : List Bytes, (∀ item ∈ items, item.length < 2 ^ 32) → decodeTlv (encodeTlv items) = some items)
        ∧
      (∀ buf items, decodeTlv buf = some items → encodeTlv items = buf)
        ∧
      (∀ buf items, decodeTlv buf = some items → parseTlv buf = items)
        ∧
      (∀ buf, (decodeTlv buf).isSome ↔ parseTlvRest buf = []) := by
  refine ⟨?_, ?_, ?_, ?_⟩
  . intro items h
    have hparse := parseTlv_encodeTlv h
    have hrest : parseTlvRest (encodeTlv items) = [] := by
      apply parseTlvRest_eq_nil_of_parseTlv
      rw [hparse]
    rw [decodeTlv_eq, if_pos hrest, hparse]
  . intro buf items h
    rcases decodeTlv_eq_some h with ⟨hrest, rfl⟩
    have hsplit := encodeTlv_parseTlv buf
    rw [hrest, List.append_nil] at hsplit
    exact hsplit
  . intro buf items h
    exact (decodeTlv_eq_some h).2
  . intro buf
    rw [decodeTlv_eq]
    split
    . next hrest => simp [hrest]
    . next hrest => simp [hrest]

end OpenRusty
