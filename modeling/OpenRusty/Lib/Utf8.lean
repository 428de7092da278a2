import Mathlib.Data.List.Basic

/-!
This module contains the lossy reading of UTF-8: every character that is written well is read, and every
longest start of a character that breaks off is replaced by one replacement character. Texts that are
written well are read back unchanged.
-/

namespace Utf8

def replacement : Char := Char.ofNat 0xfffd

def isTail (b : UInt8) : Bool := decide (0x80 ≤ b.toNat ∧ b.toNat ≤ 0xbf)

def isSecondOfThree (a b : UInt8) : Bool :=
  decide (a.toNat = 0xe0 ∧ 0xa0 ≤ b.toNat ∧ b.toNat ≤ 0xbf
    ∨ 0xe1 ≤ a.toNat ∧ a.toNat ≤ 0xec ∧ 0x80 ≤ b.toNat ∧ b.toNat ≤ 0xbf
    ∨ a.toNat = 0xed ∧ 0x80 ≤ b.toNat ∧ b.toNat ≤ 0x9f
    ∨ 0xee ≤ a.toNat ∧ a.toNat ≤ 0xef ∧ 0x80 ≤ b.toNat ∧ b.toNat ≤ 0xbf)

def isSecondOfFour (a b : UInt8) : Bool :=
  decide (a.toNat = 0xf0 ∧ 0x90 ≤ b.toNat ∧ b.toNat ≤ 0xbf
    ∨ 0xf1 ≤ a.toNat ∧ a.toNat ≤ 0xf3 ∧ 0x80 ≤ b.toNat ∧ b.toNat ≤ 0xbf
    ∨ a.toNat = 0xf4 ∧ 0x80 ≤ b.toNat ∧ b.toNat ≤ 0x8f)

def accept (ok : UInt8 → Bool) (rest : List UInt8) (next : UInt8 → List UInt8 → Char × List UInt8)
    : Char × List UInt8 :=
  match rest with
  | [] => (replacement, [])
  | b :: rest' => if ok b then next b rest' else (replacement, rest)

def next (a : UInt8) (rest : List UInt8) : Char × List UInt8 :=
  if a.toNat < 0x80 then
    (Char.ofNat a.toNat, rest)
  else if 0xc2 ≤ a.toNat ∧ a.toNat ≤ 0xdf then
    accept isTail rest fun b rest => (Char.ofNat (a.toNat % 0x20 * 0x40 + b.toNat % 0x40), rest)
  else if 0xe0 ≤ a.toNat ∧ a.toNat ≤ 0xef then
    accept (isSecondOfThree a) rest fun b rest =>
      accept isTail rest fun c rest =>
        (Char.ofNat (a.toNat % 0x10 * 0x1000 + b.toNat % 0x40 * 0x40 + c.toNat % 0x40), rest)
  else if 0xf0 ≤ a.toNat ∧ a.toNat ≤ 0xf4 then
    accept (isSecondOfFour a) rest fun b rest =>
      accept isTail rest fun c rest =>
        accept isTail rest fun d rest =>
          (Char.ofNat (a.toNat % 8 * 0x40000 + b.toNat % 0x40 * 0x1000 + c.toNat % 0x40 * 0x40 + d.toNat % 0x40), rest)
  else
    (replacement, rest)

theorem length_accept_le {ok : UInt8 → Bool} {rest : List UInt8} {next : UInt8 → List UInt8 → Char × List UInt8}
    (h : ∀ b rest, (next b rest).2.length ≤ rest.length)
    : (accept ok rest next).2.length ≤ rest.length := by
  unfold accept
  split
  . simp
  . next b rest' =>
    split
    . have := h b rest'
      simp only [List.length_cons]
      omega
    . simp

theorem length_next_le (a : UInt8) (rest : List UInt8) : (next a rest).2.length ≤ rest.length := by
  unfold next
  split
  . exact Nat.le_refl _
  . split
    . exact length_accept_le fun _ _ => Nat.le_refl _
    . split
      . exact length_accept_le fun _ _ => length_accept_le fun _ _ => Nat.le_refl _
      . split
        . exact length_accept_le fun _ _ => length_accept_le fun _ _ => length_accept_le fun _ _ => Nat.le_refl _
        . exact Nat.le_refl _

def readLossy (bytes : List UInt8) : List Char :=
  match bytes with
  | [] => []
  | a :: rest => (next a rest).1 :: readLossy (next a rest).2
termination_by bytes.length
decreasing_by
  have := length_next_le a rest
  simp only [List.length_cons]
  omega

def fromUtf8Lossy (bytes : List UInt8) : String := String.ofList (readLossy bytes)

theorem accept_cons {ok : UInt8 → Bool} {b : UInt8} {rest : List UInt8}
    {next : UInt8 → List UInt8 → Char × List UInt8} (h : ok b = true)
    : accept ok (b :: rest) next = next b rest := by
  simp [accept, h]

theorem toNat_ofNat {n : Nat} (h : n < 256) : (UInt8.ofNat n).toNat = n := by
  rw [UInt8.toNat_ofNat']
  exact Nat.mod_eq_of_lt h

theorem isValid (c : Char) : c.toNat < 0xd800 ∨ 0xdfff < c.toNat ∧ c.toNat < 0x110000 := c.valid

theorem next_encode (c : Char) (rest : List UInt8)
    : ∃ a tail, String.utf8EncodeChar c = a :: tail ∧ next a (tail ++ rest) = (c, rest) := by
  have hvalid := isValid c
  have hchar : ∀ n, n = c.toNat → Char.ofNat n = c := by
    rintro n rfl
    exact Char.ofNat_toNat c
  unfold String.utf8EncodeChar
  generalize hv : c.val.toNat = v
  have hv' : c.toNat = v := hv
  rw [hv'] at hvalid hchar
  -- One case for each number of bytes, with the ranges of the second byte in the last two.
  dsimp only
  split
  . next h1 =>
    refine ⟨_, _, rfl, ?_⟩
    have ha := toNat_ofNat (n := v) (by omega)
    rw [next, ha, if_pos (by omega), hchar v rfl]
    rfl
  . next h1 =>
    split
    . next h2 =>
      refine ⟨_, _, rfl, ?_⟩
      have ha := toNat_ofNat (n := v / 64 % 0x20 + 0xc0) (by omega)
      have hb := toNat_ofNat (n := v % 0x40 + 0x80) (by omega)
      rw [next, ha, if_neg (by omega), if_pos (by omega), List.cons_append, List.nil_append, accept_cons, hb]
      . rw [hchar]
        omega
      . rw [isTail, hb, decide_eq_true_eq]
        omega
    . next h2 =>
      split
      . next h3 =>
        refine ⟨_, _, rfl, ?_⟩
        have ha := toNat_ofNat (n := v / 4096 % 0x10 + 0xe0) (by omega)
        have hb := toNat_ofNat (n := v / 64 % 0x40 + 0x80) (by omega)
        have hc := toNat_ofNat (n := v % 0x40 + 0x80) (by omega)
        rw [next, ha, if_neg (by omega), if_neg (by omega), if_pos (by omega), List.cons_append, accept_cons,
          List.cons_append, List.nil_append, accept_cons, hb, hc]
        . rw [hchar]
          omega
        . rw [isTail, hc, decide_eq_true_eq]
          omega
        . rw [isSecondOfThree, ha, hb, decide_eq_true_eq]
          omega
      . next h3 =>
        refine ⟨_, _, rfl, ?_⟩
        have ha := toNat_ofNat (n := v / 262144 % 8 + 0xf0) (by omega)
        have hb := toNat_ofNat (n := v / 4096 % 0x40 + 0x80) (by omega)
        have hc := toNat_ofNat (n := v / 64 % 0x40 + 0x80) (by omega)
        have hd := toNat_ofNat (n := v % 0x40 + 0x80) (by omega)
        rw [next, ha, if_neg (by omega), if_neg (by omega), if_neg (by omega), if_pos (by omega), List.cons_append,
          accept_cons, List.cons_append, accept_cons, List.cons_append, List.nil_append, accept_cons, hb, hc, hd]
        . rw [hchar]
          omega
        . rw [isTail, hd, decide_eq_true_eq]
          omega
        . rw [isTail, hc, decide_eq_true_eq]
          omega
        . rw [isSecondOfFour, ha, hb, decide_eq_true_eq]
          omega

theorem readLossy_encode (text : List Char) : readLossy (text.flatMap String.utf8EncodeChar) = text := by
  induction text with
  | nil => simp [readLossy]
  | cons c text ih =>
    obtain ⟨a, tail, hencode, hnext⟩ := next_encode c (text.flatMap String.utf8EncodeChar)
    rw [List.flatMap_cons, hencode, List.cons_append, readLossy, hnext, ih]

theorem toUTF8_eq (s : String) : s.toUTF8.data.toList = s.toList.flatMap String.utf8EncodeChar := by
  have h : s.toUTF8 = s.toList.utf8Encode := by
    rw [← String.toByteArray_ofList, String.ofList_toList]
    rfl
  rw [h, List.utf8Encode, List.toList_data_toByteArray]

@[simp]
theorem fromUtf8Lossy_toUTF8 (s : String) : fromUtf8Lossy s.toUTF8.data.toList = s := by
  rw [fromUtf8Lossy, toUTF8_eq, readLossy_encode, String.ofList_toList]

end Utf8
