import OpenRusty.Core.Context
import OpenRusty.Core.Num
import OpenRusty.Lib.Join

/-!
This module contains the proof that different socket addresses are printed differently: the groups of an
IPv6 address are found again on both sides of the run of zeros that is left out.
-/

namespace OpenRusty

namespace IpAddr

theorem digitChar_injective {m n : Nat} (hm : m < 16) (hn : n < 16) (h : m.digitChar = n.digitChar) : m = n := by
  have hall : ∀ i < 16, ∀ j < 16, Nat.digitChar i = Nat.digitChar j → i = j := by decide
  exact hall m hm n hn h

theorem toDigits_injective {m n : Nat} (h : Nat.toDigits 16 m = Nat.toDigits 16 n) : m = n := by
  induction m using Nat.strongRecOn generalizing n with
  | ind m ih =>
    rw [Nat.toDigits_eq_if (by decide), Nat.toDigits_eq_if (n := n) (by decide)] at h
    split at h
    . next hm =>
      split at h
      . next hn => exact digitChar_injective hm hn (List.singleton_inj.mp h)
      . have hlen := congrArg List.length h
        have hpos := Nat.length_toDigits_pos (b := 16) (n := n / 16)
        simp only [List.length_append, List.length_singleton] at hlen
        omega
    . next hm =>
      split at h
      . have hlen := congrArg List.length h
        have hpos := Nat.length_toDigits_pos (b := 16) (n := m / 16)
        simp only [List.length_append, List.length_singleton] at hlen
        omega
      . have hparts := List.append_inj' h rfl
        have hdiv := ih (m / 16) (by omega) hparts.1
        have hmod := digitChar_injective (by omega) (by omega) (List.singleton_inj.mp hparts.2)
        omega

theorem digitChar_of_mem_toDigits {n : Nat} : ∀ c ∈ Nat.toDigits 16 n, ∃ d < 16, c = Nat.digitChar d := by
  induction n using Nat.strongRecOn with
  | ind n ih =>
    intro c hc
    rw [Nat.toDigits_eq_if (by decide)] at hc
    split at hc
    . next hn => exact ⟨n, hn, List.mem_singleton.mp hc⟩
    . rcases List.mem_append.mp hc with hc | hc
      . exact ih (n / 16) (by omega) c hc
      . exact ⟨n % 16, by omega, List.mem_singleton.mp hc⟩

theorem mark_notMem_toDigits {c : Char} (hc : c = '.' ∨ c = ':' ∨ c = ']') (n : Nat) : c ∉ Nat.toDigits 16 n := by
  intro hmem
  rcases digitChar_of_mem_toDigits c hmem with ⟨d, hd, rfl⟩
  have hall : ∀ d < 16, ¬(Nat.digitChar d = '.' ∨ Nat.digitChar d = ':' ∨ Nat.digitChar d = ']') := by decide
  exact hall d hd hc

section showV4

theorem octetsV4_injective {a b : BitVec 32} (h : octetsV4 a = octetsV4 b) : a = b := by
  simp only [octetsV4, List.map_cons, List.map_nil, List.cons.injEq, BitVec.toNat_ushiftRight,
    Nat.shiftRight_eq_div_pow] at h
  apply BitVec.eq_of_toNat_eq
  omega

theorem splitChar_showV4 (octets : BitVec 32)
    : splitChar '.' (showV4 octets) = (octetsV4 octets).map ToString.toString := by
  have hfree : ∀ part ∈ (octetsV4 octets).map ToString.toString, '.' ∉ part.toList := by
    intro part hpart hmem
    rcases List.mem_map.mp hpart with ⟨octet, -, rfl⟩
    cases isDigit_of_mem_toString hmem
  exact splitChar_intercalate hfree (by simp [octetsV4])

theorem showV4_injective {a b : BitVec 32} (h : showV4 a = showV4 b) : a = b := by
  have hparts := congrArg (splitChar '.') h
  rw [splitChar_showV4, splitChar_showV4] at hparts
  have hinj : Function.Injective (ToString.toString : Nat → String) := by
    intro m n hmn
    exact toString_injective (congrArg String.toList hmn)
  exact octetsV4_injective (List.map_injective_iff.mpr hinj hparts)

end showV4

section showV6

theorem div_eq_of_segment {k m n : Nat} (hdiv : m / 2 ^ (k + 16) = n / 2 ^ (k + 16))
    (hmod : m / 2 ^ k % 2 ^ 16 = n / 2 ^ k % 2 ^ 16)
    : m / 2 ^ k = n / 2 ^ k := by
  rw [Nat.pow_add, ← Nat.div_div_eq_div_mul, ← Nat.div_div_eq_div_mul] at hdiv
  omega

theorem segmentsV6_injective {a b : BitVec 128} (h : segmentsV6 a = segmentsV6 b) : a = b := by
  simp only [segmentsV6, List.map_cons, List.map_nil, List.cons.injEq, BitVec.toNat_ushiftRight,
    Nat.shiftRight_eq_div_pow] at h
  rcases h with ⟨h112, h96, h80, h64, h48, h32, h16, h0, -⟩
  have htop : a.toNat / 2 ^ 128 = b.toNat / 2 ^ 128 := by
    rw [Nat.div_eq_of_lt a.isLt, Nat.div_eq_of_lt b.isLt]
  have h := div_eq_of_segment (div_eq_of_segment (div_eq_of_segment (div_eq_of_segment htop h112) h96) h80) h64
  have h := div_eq_of_segment (div_eq_of_segment (div_eq_of_segment (div_eq_of_segment h h48) h32) h16) h0
  apply BitVec.eq_of_toNat_eq
  simpa using h

theorem segmentsV6_length (octets : BitVec 128) : (segmentsV6 octets).length = 8 := by
  rfl

structure Zeros (segments : List Nat) (run : Nat × Nat) : Prop where
  length : run.1 + run.2 ≤ segments.length
  zero : ∀ i, run.1 ≤ i → i < run.1 + run.2 → segments[i]? = some 0

theorem longestZeros.zeros_go {segments rest : List Nat} {i : Nat} {longest current : Nat × Nat}
    (hrest : segments.drop i = rest) (hlongest : Zeros segments longest) (hcurrent : Zeros segments current)
    (hend : current.2 = 0 ∨ current.1 + current.2 = i)
    : Zeros segments (longestZeros.go i longest current rest) := by
  induction rest generalizing i longest current with
  | nil => exact hlongest
  | cons segment rest ih =>
    have hi : segments[i]? = some segment := by
      rw [← List.head?_drop, hrest, List.head?_cons]
    have hlt : i < segments.length := (List.getElem?_eq_some_iff.mp hi).1
    have hnext : segments.drop (i + 1) = rest := by
      rw [← List.tail_drop, hrest, List.tail_cons]
    unfold longestZeros.go
    split
    . next hzero =>
      subst hzero
      dsimp only
      have hgrown : Zeros segments (if current.2 = 0 then (i, 1) else (current.1, current.2 + 1)) := by
        split
        . refine ⟨hlt, ?_⟩
          intro j hj hj'
          have : j = i := by omega
          rwa [this]
        . refine ⟨by omega, ?_⟩
          intro j hj hj'
          by_cases hji : j = i
          . rwa [hji]
          . exact hcurrent.zero j hj (by omega)
      have hgrownEnd : (if current.2 = 0 then (i, 1) else (current.1, current.2 + 1)).1
          + (if current.2 = 0 then (i, 1) else (current.1, current.2 + 1)).2 = i + 1 := by
        split
        . rfl
        . dsimp only
          omega
      generalize (if current.2 = 0 then (i, 1) else (current.1, current.2 + 1)) = grown at hgrown hgrownEnd ⊢
      apply ih hnext
      . split
        . exact hgrown
        . exact hlongest
      . exact hgrown
      . exact .inr hgrownEnd
    . exact ih hnext hlongest ⟨Nat.zero_le _, by omega⟩ (.inl rfl)

theorem zeros_longestZeros (segments : List Nat) : Zeros segments (longestZeros segments) := by
  have hnone : Zeros segments (0, 0) := ⟨Nat.zero_le _, by omega⟩
  exact longestZeros.zeros_go rfl hnone hnone (.inl rfl)

theorem Zeros.segments_eq {xs ys : List Nat} {r s : Nat × Nat} (hr : Zeros xs r) (hs : Zeros ys s)
    (hlen : xs.length = ys.length) (hhead : xs.take r.1 = ys.take s.1)
    (htail : xs.drop (r.1 + r.2) = ys.drop (s.1 + s.2))
    : xs = ys := by
  have hrlen := hr.length
  have hslen := hs.length
  have hstart : r.1 = s.1 := by
    have := congrArg List.length hhead
    simp only [List.length_take] at this
    omega
  have hend : r.1 + r.2 = s.1 + s.2 := by
    have := congrArg List.length htail
    simp only [List.length_drop] at this
    omega
  apply List.ext_getElem?
  intro i
  by_cases hi : i < r.1
  . have := congrArg (fun l => l[i]?) hhead
    simpa only [List.getElem?_take, if_pos hi, if_pos (hstart ▸ hi)] using this
  . by_cases hi' : i < r.1 + r.2
    . rw [hr.zero i (by omega) hi', hs.zero i (by omega) (by omega)]
    . have := congrArg (fun l => l[i - (r.1 + r.2)]?) htail
      simp only [List.getElem?_drop] at this
      rwa [show r.1 + r.2 + (i - (r.1 + r.2)) = i by omega,
        show s.1 + s.2 + (i - (r.1 + r.2)) = i by omega] at this

def parts (text : String) : List (List Char) := text.toList.splitOn ':'

def headParts (text : String) : List (List Char) := (parts text).takeWhile fun part => !part.isEmpty

def tailParts (text : String) : List (List Char) := (parts text).reverse.takeWhile fun part => !part.isEmpty

theorem parts_showSegments (segments : List Nat)
    : parts (showSegments segments)
        =
      if segments = [] then [[]] else segments.map (Nat.toDigits 16) := by
  unfold parts showSegments
  rw [String.toList_intercalate, List.map_map]
  have hmap : segments.map (String.toList ∘ fun segment => String.ofList (Nat.toDigits 16 segment))
      = segments.map (Nat.toDigits 16) := by
    apply List.map_congr_left
    intro segment _
    exact String.toList_ofList
  rw [hmap]
  split
  . next hnil =>
    rw [hnil]
    rfl
  . next hne =>
    apply List.splitOn_intercalate
    . intro part hpart
      rcases List.mem_map.mp hpart with ⟨segment, -, rfl⟩
      exact mark_notMem_toDigits (.inr (.inl rfl)) segment
    . simpa using hne

theorem takeWhile_digits (segments : List Nat) (rest : List (List Char))
    : ((segments.map (Nat.toDigits 16)) ++ [] :: rest).takeWhile (fun part => !part.isEmpty)
        =
      segments.map (Nat.toDigits 16) := by
  rw [List.takeWhile_append_of_pos]
  . simp
  . intro part hpart
    rcases List.mem_map.mp hpart with ⟨segment, -, rfl⟩
    simp

theorem parts_compressed (head tail : List Nat)
    : parts (showSegments head ++ "::" ++ showSegments tail)
        =
      parts (showSegments head) ++ [] :: parts (showSegments tail) := by
  have htext : (showSegments head ++ "::" ++ showSegments tail).toList
      = (showSegments head).toList ++ ':' :: ([] ++ ':' :: (showSegments tail).toList) := by
    simp
  unfold parts
  rw [htext, List.splitOn_append_cons_self, List.splitOn_append_cons_self]
  rfl

theorem headParts_compressed (head tail : List Nat)
    : headParts (showSegments head ++ "::" ++ showSegments tail) = head.map (Nat.toDigits 16) := by
  unfold headParts
  rw [parts_compressed, parts_showSegments]
  split
  . next hnil =>
    rw [hnil]
    rfl
  . apply takeWhile_digits

theorem tailParts_compressed (head tail : List Nat)
    : tailParts (showSegments head ++ "::" ++ showSegments tail) = tail.reverse.map (Nat.toDigits 16) := by
  unfold tailParts
  rw [parts_compressed, List.reverse_append, List.reverse_cons, List.append_assoc, List.singleton_append,
    parts_showSegments tail]
  split
  . next hnil =>
    rw [hnil]
    rfl
  . rw [← List.map_reverse]
    apply takeWhile_digits

theorem headParts_full {segments : List Nat} (hne : segments ≠ [])
    : headParts (showSegments segments) = segments.map (Nat.toDigits 16) := by
  unfold headParts
  rw [parts_showSegments, if_neg hne, List.takeWhile_eq_self_iff]
  intro part hpart
  rcases List.mem_map.mp hpart with ⟨segment, -, rfl⟩
  simp

theorem map_toDigits_injective {xs ys : List Nat} (h : xs.map (Nat.toDigits 16) = ys.map (Nat.toDigits 16)) : xs = ys :=
  List.map_injective_iff.mpr (fun _ _ => toDigits_injective) h

theorem textOf_showSegments_ne {segments : List Nat} {c : Char} (hc : c = '.' ∨ c = ']')
    : TextOf (· != c) (showSegments segments) := by
  apply TextOf.intercalate
  . rcases hc with rfl | rfl <;> decide
  . intro part hpart
    rcases List.mem_map.mp hpart with ⟨segment, -, rfl⟩
    intro d hd
    rw [String.toList_ofList] at hd
    rw [bne_iff_ne]
    rintro rfl
    apply mark_notMem_toDigits _ segment hd
    rcases hc with hc | hc
    . exact .inl hc
    . exact .inr (.inr hc)

def showGroups (segments : List Nat) : String :=
  if 1 < (longestZeros segments).2 then
    showSegments (segments.take (longestZeros segments).1) ++ "::"
      ++ showSegments (segments.drop ((longestZeros segments).1 + (longestZeros segments).2))
  else
    showSegments segments

theorem textOf_showGroups_ne {segments : List Nat} {c : Char} (hc : c = '.' ∨ c = ']')
    : TextOf (· != c) (showGroups segments) := by
  have hcolon : TextOf (· != c) "::" := by rcases hc with rfl | rfl <;> decide
  unfold showGroups
  split
  . exact ((textOf_showSegments_ne hc).append hcolon).append (textOf_showSegments_ne hc)
  . exact textOf_showSegments_ne hc

theorem dot_mem_showV4 (octets : BitVec 32) : '.' ∈ (showV4 octets).toList := by
  unfold showV4
  simp [octetsV4]

theorem headParts_showGroups {segments : List Nat} (hne : segments ≠ [])
    : headParts (showGroups segments)
        =
      (if 1 < (longestZeros segments).2 then segments.take (longestZeros segments).1 else segments).map
        (Nat.toDigits 16) := by
  unfold showGroups
  split
  . apply headParts_compressed
  . apply headParts_full hne

theorem showGroups_injective {xs ys : List Nat} (hlen : xs.length = ys.length) (h : showGroups xs = showGroups ys)
    : xs = ys := by
  by_cases hnil : xs = []
  . subst hnil
    exact (List.length_eq_zero_iff.mp hlen.symm).symm
  have hnil' : ys ≠ [] := by
    rintro rfl
    exact hnil (List.length_eq_zero_iff.mp hlen)
  have hx := zeros_longestZeros xs
  have hy := zeros_longestZeros ys
  have hxlen := hx.length
  have hylen := hy.length
  have hhead := congrArg headParts h
  rw [headParts_showGroups hnil, headParts_showGroups hnil'] at hhead
  have hhead := map_toDigits_injective hhead
  have hcount := congrArg List.length hhead
  split at hhead
  . next hxrun =>
    split at hhead
    . next hyrun =>
      have htail := congrArg tailParts h
      unfold showGroups at htail
      rw [if_pos hxrun, if_pos hyrun, tailParts_compressed, tailParts_compressed] at htail
      have htail := List.reverse_injective (map_toDigits_injective htail)
      exact hx.segments_eq hy hlen hhead htail
    . next hyrun =>
      rw [if_pos hxrun, if_neg hyrun, List.length_take] at hcount
      omega
  . next hxrun =>
    split at hhead
    . next hyrun =>
      rw [if_neg hxrun, if_pos hyrun, List.length_take] at hcount
      omega
    . exact hhead

theorem showV6_eq (octets : BitVec 128)
    : showV6 octets
        =
      if (segmentsV6 octets).take 6 = [0, 0, 0, 0, 0, 0xffff] then
        "::ffff:" ++ showV4 (octets.setWidth 32)
      else
        showGroups (segmentsV6 octets) := by
  rfl

theorem eq_of_mapped {a b : BitVec 128} (ha : (segmentsV6 a).take 6 = [0, 0, 0, 0, 0, 0xffff])
    (hb : (segmentsV6 b).take 6 = [0, 0, 0, 0, 0, 0xffff]) (h : a.setWidth 32 = b.setWidth 32)
    : a = b := by
  have hlow := congrArg BitVec.toNat h
  rw [BitVec.toNat_setWidth, BitVec.toNat_setWidth] at hlow
  rw [← hb] at ha
  simp only [segmentsV6, List.map_cons, List.map_nil, List.take_succ_cons, List.take_zero, List.cons.injEq,
    BitVec.toNat_ushiftRight, Nat.shiftRight_eq_div_pow] at ha
  apply BitVec.eq_of_toNat_eq
  omega

theorem showV6_injective {a b : BitVec 128} (h : showV6 a = showV6 b) : a = b := by
  rw [showV6_eq, showV6_eq] at h
  have hdot : ∀ octets segments, "::ffff:" ++ showV4 octets ≠ showGroups segments := by
    intro octets segments heq
    have htext : TextOf (· != '.') (showGroups segments) := textOf_showGroups_ne (.inl rfl)
    have hdot := htext '.'
    rw [← heq, String.toList_append] at hdot
    exact absurd (hdot (List.mem_append_right _ (dot_mem_showV4 octets))) (by decide)
  split at h
  . next ha =>
    split at h
    . next hb =>
      have hv4 := showV4_injective (String.append_right_inj _ |>.mp h)
      exact eq_of_mapped ha hb hv4
    . exact absurd h (hdot _ _)
  . split at h
    . exact absurd h.symm (hdot _ _)
    . have hlen : (segmentsV6 a).length = (segmentsV6 b).length := by
        rw [segmentsV6_length, segmentsV6_length]
      exact segmentsV6_injective (showGroups_injective hlen h)

theorem textOf_showV4_ne (octets : BitVec 32) {c : Char} (hdigit : c.isDigit = false) (hdot : c ≠ '.')
    : TextOf (· != c) (showV4 octets) := by
  apply TextOf.intercalate
  . intro d hd
    have hd : d = '.' := by simpa using hd
    rw [hd, bne_iff_ne]
    exact hdot.symm
  . intro part hpart
    rcases List.mem_map.mp hpart with ⟨octet, -, rfl⟩
    intro d hd
    rw [bne_iff_ne]
    rintro rfl
    rw [isDigit_of_mem_toString hd] at hdigit
    cases hdigit

theorem textOf_showV6_ne (octets : BitVec 128) : TextOf (· != ']') (showV6 octets) := by
  rw [showV6_eq]
  split
  . exact TextOf.append (by decide) (textOf_showV4_ne _ (by decide) (by decide))
  . exact textOf_showGroups_ne (.inr rfl)

end showV6

end IpAddr

theorem SocketAddr.toString_injective {a b : SocketAddr} (h : a.toString = b.toString) : a = b := by
  have hport : ∀ {p q : BitVec 16},
      (ToString.toString p.toNat).toList = (ToString.toString q.toNat).toList → p = q := by
    intro p q hpq
    exact BitVec.eq_of_toNat_eq (OpenRusty.toString_injective hpq)
  have hne : ∀ {c : Char} {s : String}, TextOf (· != c) s → c ∉ s.toList := by
    intro c s hs hmem
    simpa using hs c hmem
  -- Only a version 6 address starts with a bracket.
  have hkind : ∀ (octets : BitVec 32) (port : BitVec 16) (octets' : BitVec 128) (port' : BitVec 16),
      (SocketAddr.mk (.v4 octets) port).toString.toList ≠ (SocketAddr.mk (.v6 octets') port').toString.toList := by
    intro octets port octets' port' heq
    have hbracket : '[' ∈ (SocketAddr.mk (.v4 octets) port).toString.toList := by
      rw [heq]
      simp [toString]
    have hsplit : '[' ∈ (IpAddr.showV4 octets).toList ++ ':' :: (ToString.toString port.toNat).toList := by
      simpa [toString] using hbracket
    rcases List.mem_append.mp hsplit with hmem | hmem
    . exact hne (IpAddr.textOf_showV4_ne octets (by decide) (by decide)) hmem
    . rcases List.mem_cons.mp hmem with hmem | hmem
      . cases hmem
      . cases isDigit_of_mem_toString hmem
  obtain ⟨ip, port⟩ := a
  obtain ⟨ip', port'⟩ := b
  have hlist := congrArg String.toList h
  cases ip with
  | v4 octets =>
    cases ip' with
    | v4 octets' =>
      have hsplit : (IpAddr.showV4 octets).toList ++ ':' :: (ToString.toString port.toNat).toList
          = (IpAddr.showV4 octets').toList ++ ':' :: (ToString.toString port'.toNat).toList := by
        simpa [toString] using hlist
      have hparts := (List.append_cons_inj_of_free_left (hne (IpAddr.textOf_showV4_ne octets (by decide) (by decide)))
        (hne (IpAddr.textOf_showV4_ne octets' (by decide) (by decide)))).mp hsplit
      rw [IpAddr.showV4_injective (String.toList_inj.mp hparts.1), hport hparts.2]
    | v6 octets' =>
      exact absurd hlist (hkind octets port octets' port')
  | v6 octets =>
    cases ip' with
    | v4 octets' =>
      exact absurd hlist.symm (hkind octets' port' octets port)
    | v6 octets' =>
      have hsplit : (IpAddr.showV6 octets).toList ++ ']' :: ':' :: (ToString.toString port.toNat).toList
          = (IpAddr.showV6 octets').toList ++ ']' :: ':' :: (ToString.toString port'.toNat).toList := by
        simpa [toString] using hlist
      have hparts := (List.append_cons_inj_of_free_left (hne (IpAddr.textOf_showV6_ne octets))
        (hne (IpAddr.textOf_showV6_ne octets'))).mp hsplit
      rw [IpAddr.showV6_injective (String.toList_inj.mp hparts.1), hport (List.cons.inj hparts.2).2]

end OpenRusty
