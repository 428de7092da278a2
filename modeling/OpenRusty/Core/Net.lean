import OpenRusty.Core.Context
import OpenRusty.Core.Num

/-!
This module contains the reading of IP addresses from text as the standard library does it: an octet of
an IPv4 address has no leading zero, an IPv6 address may leave out one run of groups and may end in an
IPv4 address. A reader takes characters from the front of the text and returns the rest.
-/

namespace OpenRusty

namespace IpAddr

def digitValue (radix : Nat) (c : Char) : Option Nat :=
  let n :=
    if c.isDigit then
      c.toNat - '0'.toNat
    else if 'a' ≤ c ∧ c ≤ 'z' then
      c.toNat - 'a'.toNat + 10
    else if 'A' ≤ c ∧ c ≤ 'Z' then
      c.toNat - 'A'.toNat + 10
    else
      radix
  if n < radix then some n else none

def readNumber (radix maxDigits bound : Nat) (allowZeroPrefix : Bool) (cs : List Char)
    : Option (Nat × List Char) :=
  let digits := cs.takeWhile fun c => (digitValue radix c).isSome
  if digits.isEmpty || maxDigits < digits.length then
    none
  else if !allowZeroPrefix && digits.head? == some '0' && 1 < digits.length then
    none
  else
    let n := digits.foldl (fun n c => n * radix + (digitValue radix c).getD 0) 0
    if n < bound then some (n, cs.drop digits.length) else none

def readSeparator (sep : Char) (index : Nat) (inner : List Char → Option (α × List Char))
    (cs : List Char)
    : Option (α × List Char) :=
  if index = 0 then
    inner cs
  else
    match cs with
    | [] => none
    | c :: cs => if c = sep then inner cs else none

def readOctet (index : Nat) (cs : List Char) : Option (Nat × List Char) :=
  readSeparator '.' index (readNumber 10 3 256 false) cs

def readIpv4 (cs : List Char) : Option (BitVec 32 × List Char) := do
  let (a, cs) ← readOctet 0 cs
  let (b, cs) ← readOctet 1 cs
  let (c, cs) ← readOctet 2 cs
  let (d, cs) ← readOctet 3 cs
  return (BitVec.ofNat 32 (a * 2 ^ 24 + b * 2 ^ 16 + c * 2 ^ 8 + d), cs)

def readGroups (left index : Nat) (cs : List Char) : List Nat × Bool × List Char :=
  match left with
  | 0 => ([], false, cs)
  | left + 1 =>
    match if 1 ≤ left then readSeparator ':' index readIpv4 cs else none with
    | some (octets, cs) => ([octets.toNat / 2 ^ 16, octets.toNat % 2 ^ 16], true, cs)
    | none =>
      match readSeparator ':' index (readNumber 16 4 (2 ^ 16) true) cs with
      | some (group, cs) =>
        match readGroups left (index + 1) cs with
        | (groups, ipv4, cs) => (group :: groups, ipv4, cs)
      | none => ([], false, cs)

def ofSegments (segments : List Nat) : BitVec 128 :=
  BitVec.ofNat 128 (segments.foldl (fun n segment => n * 2 ^ 16 + segment) 0)

def readIpv6 (cs : List Char) : Option (BitVec 128 × List Char) :=
  match readGroups 8 0 cs with
  | (head, ipv4, cs) =>
    if head.length = 8 then
      some (ofSegments head, cs)
    else if ipv4 then
      none
    else
      match cs with
      | ':' :: ':' :: cs =>
        match readGroups (8 - (head.length + 1)) 0 cs with
        | (tail, _, cs) =>
          let zeros := List.replicate (8 - head.length - tail.length) 0
          some (ofSegments (head ++ zeros ++ tail), cs)
      | _ => none

def parse (s : String) : Option IpAddr :=
  match readIpv4 s.toList with
  | some (octets, rest) => if rest.isEmpty then some (.v4 octets) else none
  | none =>
    match readIpv6 s.toList with
    | some (octets, rest) => if rest.isEmpty then some (.v6 octets) else none
    | none => none

def isIpv4 (addr : IpAddr) : Bool :=
  match addr with
  | .v4 _ => true
  | .v6 _ => false

section text

theorem digitValue_ten {c : Char} (h : (digitValue 10 c).isSome = true) : c.isDigit = true := by
  unfold digitValue at h
  by_cases hdigit : c.isDigit = true
  . exact hdigit
  . rw [if_neg hdigit] at h
    split at h
    . dsimp only at h
      rw [if_neg (by omega)] at h
      cases h
    . split at h
      . dsimp only at h
        rw [if_neg (by omega)] at h
        cases h
      . cases h

theorem readNumber_ten {maxDigits bound n : Nat} {cs rest : List Char}
    (h : readNumber 10 maxDigits bound false cs = some (n, rest))
    : ∃ digits, cs = digits ++ rest ∧ ∀ c ∈ digits, c.isDigit = true := by
  unfold readNumber at h
  dsimp only at h
  split at h
  . cases h
  . split at h
    . cases h
    . split at h
      . cases h
        refine ⟨_, (List.prefix_iff_eq_append.mp (List.takeWhile_prefix _)).symm, ?_⟩
        intro c hc
        apply digitValue_ten
        exact List.mem_takeWhile_imp (p := fun c => (digitValue 10 c).isSome) hc
      . cases h

def isIpv4Char (c : Char) : Prop := c.isDigit = true ∨ c = '.'

theorem readOctet_text {index n : Nat} {cs rest : List Char} (h : readOctet index cs = some (n, rest))
    : ∃ text, cs = text ++ rest ∧ ∀ c ∈ text, isIpv4Char c := by
  unfold readOctet readSeparator at h
  split at h
  . rcases readNumber_ten h with ⟨digits, rfl, hdigits⟩
    exact ⟨digits, rfl, fun c hc => .inl (hdigits c hc)⟩
  . split at h
    . cases h
    . next c cs =>
      split at h
      . next hc =>
        rcases readNumber_ten h with ⟨digits, rfl, hdigits⟩
        refine ⟨c :: digits, rfl, ?_⟩
        intro c' hc'
        rcases List.mem_cons.mp hc' with rfl | hmem
        . exact .inr hc
        . exact .inl (hdigits c' hmem)
      . cases h

theorem readIpv4_text {octets : BitVec 32} {cs rest : List Char} (h : readIpv4 cs = some (octets, rest))
    : ∃ text, cs = text ++ rest ∧ ∀ c ∈ text, isIpv4Char c := by
  unfold readIpv4 at h
  rcases Option.bind_eq_some_iff.mp h with ⟨⟨a, csa⟩, ha, h⟩
  rcases Option.bind_eq_some_iff.mp h with ⟨⟨b, csb⟩, hb, h⟩
  rcases Option.bind_eq_some_iff.mp h with ⟨⟨c, csc⟩, hc, h⟩
  rcases Option.bind_eq_some_iff.mp h with ⟨⟨d, csd⟩, hd, h⟩
  cases h
  rcases readOctet_text ha with ⟨ta, rfl, hta⟩
  rcases readOctet_text hb with ⟨tb, rfl, htb⟩
  rcases readOctet_text hc with ⟨tc, rfl, htc⟩
  rcases readOctet_text hd with ⟨td, rfl, htd⟩
  refine ⟨ta ++ tb ++ tc ++ td, by simp, ?_⟩
  intro x hx
  simp only [List.mem_append] at hx
  rcases hx with ((hx | hx) | hx) | hx
  . exact hta x hx
  . exact htb x hx
  . exact htc x hx
  . exact htd x hx

theorem isIpv4Char_of_parse {s : String} {octets : BitVec 32} (h : parse s = some (.v4 octets))
    : ∀ c ∈ s.toList, isIpv4Char c := by
  unfold parse at h
  split at h
  . next octets' rest hread =>
    rcases readIpv4_text hread with ⟨text, htext, hchars⟩
    split at h
    . next hrest =>
      rw [List.isEmpty_iff] at hrest
      rw [htext, hrest, List.append_nil]
      exact hchars
    . cases h
  . split at h
    . split at h
      . cases h
      . cases h
    . cases h

end text

end IpAddr

end OpenRusty
