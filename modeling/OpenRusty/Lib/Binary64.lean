import Mathlib.Data.Nat.Digits.Defs
import Mathlib.Data.Prod.Lex

/-!
This module contains what a program does with 64 bit floats besides arithmetic: it compares them, where a value that
is no number is neither below nor above anything, `ofDecimal` reads a plain decimal text as the nearest float and
`toFixed` prints a float with a given number of decimals.
-/

namespace Binary64

open Float.Model

def rank (x : UnpackedFloat) : Option (ℤ ×ₗ ℤ ×ₗ ℤ) :=
  match x with
  | .notANumber => none
  | .infinity .negative => some (toLex (-2, toLex (0, 0)))
  | .finite .negative m e _ => some (toLex (-1, toLex (-e, -(m : ℤ))))
  | .zero _ => some (toLex (0, toLex (0, 0)))
  | .finite .positive m e _ => some (toLex (1, toLex (e, (m : ℤ))))
  | .infinity .positive => some (toLex (2, toLex (0, 0)))

theorem compare_then_isLE_iff (e e' : ℤ) (m m' : ℕ)
    : ((compare e e').then (compare m m')).isLE = true ↔ e < e' ∨ e = e' ∧ m ≤ m' := by
  rcases Int.lt_trichotomy e e' with h | h | h
  . simp [compare_lt_iff_lt.mpr h, h]
  . subst h
    simp [Nat.isLE_compare]
  . simp [compare_gt_iff_gt.mpr h]
    omega

theorem compare_then_isGE_iff (e e' : ℤ) (m m' : ℕ)
    : ((compare e e').then (compare m m')).isGE = true ↔ e' < e ∨ e = e' ∧ m' ≤ m := by
  rcases Int.lt_trichotomy e e' with h | h | h
  . simp [compare_lt_iff_lt.mpr h]
    omega
  . subst h
    simp [Nat.isGE_compare]
  . simp [compare_gt_iff_gt.mpr h, h]

theorem le_iff_rank (x y : UnpackedFloat)
    : x.le y = true ↔ ∃ a b, rank x = some a ∧ rank y = some b ∧ a ≤ b := by
  unfold UnpackedFloat.le
  rcases x with (_ | _) | _ | s | ⟨(_ | _), m, e, h⟩ <;> rcases y with (_ | _) | _ | t | ⟨(_ | _), m', e', h'⟩ <;>
    dsimp only [UnpackedFloat.compare, rank] <;>
    simp [Prod.Lex.le_iff, compare_then_isLE_iff, compare_then_isGE_iff] <;> rfl

theorem le_trans {x y z : Float} (hxy : x ≤ y) (hyz : y ≤ z) : x ≤ z := by
  have hle : ∀ a b : Float, a ≤ b ↔ a.toModel.unpack.le b.toModel.unpack = true := by
    intro a b
    change decide (a.toModel ≤ b.toModel) = true ↔ _
    rw [decide_eq_true_iff]
    rfl
  rw [hle, le_iff_rank] at hxy hyz ⊢
  obtain ⟨a, b, ha, hb, hab⟩ := hxy
  obtain ⟨b', c, hb', hc, hbc⟩ := hyz
  rw [hb] at hb'
  cases hb'
  exact ⟨a, c, ha, hc, hab.trans hbc⟩

def ofDecimal (text : List Char) : Option Float :=
  let whole := text.takeWhile Char.isDigit
  let decimals := (text.dropWhile Char.isDigit).drop 1
  if !whole.isEmpty && (text.dropWhile Char.isDigit).head?.all (· == '.') && decimals.all Char.isDigit then
    some (OfScientific.ofScientific (Nat.ofDigitChars 10 (whole ++ decimals) 0) true decimals.length)
  else
    none

def roundToEven (num den : Nat) : Nat :=
  if 2 * (num % den) < den ∨ 2 * (num % den) = den ∧ num / den % 2 = 0 then num / den else num / den + 1

def signText (s : UnpackedFloat.Sign) : List Char :=
  match s with
  | .negative => ['-']
  | .positive => []

def scaled (decimals m : Nat) (e : Int) : Nat :=
  roundToEven (m * 10 ^ decimals * 2 ^ e.toNat) (2 ^ (-e).toNat)

def fixedPoint (decimals n : Nat) : List Char :=
  Nat.toDigits 10 (n / 10 ^ decimals) ++ '.' :: (Nat.toDigits 10 (n % 10 ^ decimals)).leftpad decimals '0'

/-- What `{:.decimals}` prints, for at least one decimal. -/
def toFixed (decimals : Nat) (x : Float) : String :=
  String.ofList <|
    match x.toModel.unpack with
    | .notANumber => ['N', 'a', 'N']
    | .infinity s => signText s ++ ['i', 'n', 'f']
    | .zero s => signText s ++ fixedPoint decimals 0
    | .finite s m e _ => signText s ++ fixedPoint decimals (scaled decimals m e)

theorem plain_signText {s : UnpackedFloat.Sign} {c : Char} (h : c ∈ signText s) : c = '-' := by
  cases s with
  | negative => simpa [signText] using h
  | positive => simp [signText] at h

theorem plain_fixedPoint {decimals n : Nat} {c : Char} (h : c ∈ fixedPoint decimals n)
    : c.isAlphanum = true ∨ c = '.' := by
  have hdigit : ∀ {k : Nat} {c : Char}, c ∈ Nat.toDigits 10 k → c.isAlphanum = true := by
    intro k c hc
    have := Nat.isDigit_of_mem_toDigits (by decide) (by decide) hc
    simp [Char.isAlphanum, this]
  unfold fixedPoint at h
  rw [List.mem_append, List.mem_cons, List.leftpad, List.mem_append, List.mem_replicate] at h
  rcases h with h | rfl | ⟨-, rfl⟩ | h
  . exact .inl (hdigit h)
  . exact .inr rfl
  . exact .inl (by decide)
  . exact .inl (hdigit h)

theorem plain_toFixed (decimals : Nat) (x : Float) {c : Char} (h : c ∈ (toFixed decimals x).toList)
    : c.isAlphanum = true ∨ c = '.' ∨ c = '-' := by
  unfold toFixed at h
  rw [String.toList_ofList] at h
  split at h
  . simp only [List.mem_cons, List.not_mem_nil, or_false] at h
    rcases h with rfl | rfl | rfl <;> decide
  . rcases List.mem_append.mp h with h | h
    . exact .inr (.inr (plain_signText h))
    . simp only [List.mem_cons, List.not_mem_nil, or_false] at h
      rcases h with rfl | rfl | rfl <;> decide
  . rcases List.mem_append.mp h with h | h
    . exact .inr (.inr (plain_signText h))
    . exact (plain_fixedPoint h).imp_right .inl
  . rcases List.mem_append.mp h with h | h
    . exact .inr (.inr (plain_signText h))
    . exact (plain_fixedPoint h).imp_right .inl

example : ([0.1 + 0.2, -0.0000005, 1 / 0, 0 / 0, -2.5, 1e17] : List Float).map (toFixed 6)
    = ["0.300000", "-0.000000", "inf", "NaN", "-2.500000", "100000000000000000.000000"] := by decide +kernel

end Binary64
