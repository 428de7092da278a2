/-!
This module contains JSON texts as bytes (RFC 8259): a grammar that also collects the members of all objects
of a text, what the literal of a string spells, and the tokens of a text. Strings that stand around a
colon in a text are the name and the value of a member.
-/

namespace Json

abbrev Text := List UInt8

def quote : UInt8 := 0x22

def backslash : UInt8 := 0x5c

def colon : UInt8 := 0x3a

def comma : UInt8 := 0x2c

def isBlank (b : UInt8) : Bool := b == 0x20 || b == 0x09 || b == 0x0a || b == 0x0d

def Solid (b : UInt8) : Prop := b ≠ quote ∧ isBlank b = false

instance : DecidablePred Solid := fun b => inferInstanceAs (Decidable (b ≠ quote ∧ isBlank b = false))

def Blank (text : Text) : Prop := ∀ b ∈ text, isBlank b = true

def quoted (raw : Text) : Text := quote :: raw ++ [quote]

def unescape (b : UInt8) : Option UInt8 :=
  [(0x22, 0x22), (0x5c, 0x5c), (0x2f, 0x2f), (0x62, 0x08), (0x66, 0x0c), (0x6e, 0x0a), (0x72, 0x0d),
    (0x74, 0x09)].lookup b

def hexDigit (b : UInt8) : Option Nat :=
  if 0x30 ≤ b ∧ b ≤ 0x39 then
    some (b.toNat - 0x30)
  else if 0x61 ≤ b ∧ b ≤ 0x66 then
    some (b.toNat - 0x61 + 10)
  else if 0x41 ≤ b ∧ b ≤ 0x46 then
    some (b.toNat - 0x41 + 10)
  else
    none

def hex4 (a b c d : UInt8) : Option Nat := do
  return (((← hexDigit a) * 16 + (← hexDigit b)) * 16 + (← hexDigit c)) * 16 + (← hexDigit d)

def escapeU (a b c d : UInt8) : Text := [backslash, 0x75, a, b, c, d]

def isHigh (unit : Nat) : Bool := decide (0xd800 ≤ unit ∧ unit ≤ 0xdbff)

def isLow (unit : Nat) : Bool := decide (0xdc00 ≤ unit ∧ unit ≤ 0xdfff)

inductive IsString : Text → Prop where
  | nil : IsString []
  | plain {b : UInt8} {raw : Text} (hquote : b ≠ quote) (hbackslash : b ≠ backslash) (hcontrol : 0x20 ≤ b)
      (h : IsString raw)
    : IsString (b :: raw)
  | escape {b : UInt8} {raw : Text} (hescape : (unescape b).isSome) (h : IsString raw)
    : IsString (backslash :: b :: raw)
  | unicode {a b c d : UInt8} {raw : Text} (hhex : (hex4 a b c d).isSome) (h : IsString raw)
    : IsString (escapeU a b c d ++ raw)

/-- A text with half of a surrogate pair is a string and yet it spells nothing. -/
inductive Spells : Text → Text → Prop where
  | nil : Spells [] []
  | plain {b : UInt8} {raw v : Text} (hquote : b ≠ quote) (hbackslash : b ≠ backslash) (hcontrol : 0x20 ≤ b)
      (h : Spells raw v)
    : Spells (b :: raw) (b :: v)
  | escape {b e : UInt8} {raw v : Text} (hescape : unescape b = some e) (h : Spells raw v)
    : Spells (backslash :: b :: raw) (e :: v)
  | unicode {a b c d : UInt8} {unit : Nat} {raw v : Text} (hhex : hex4 a b c d = some unit)
      (hhigh : isHigh unit = false) (hlow : isLow unit = false) (h : Spells raw v)
    : Spells (escapeU a b c d ++ raw) (String.utf8EncodeChar (Char.ofNat unit) ++ v)
  | pair {a b c d a' b' c' d' : UInt8} {high low : Nat} {raw v : Text} (hhex : hex4 a b c d = some high)
      (hhex' : hex4 a' b' c' d' = some low) (hhigh : isHigh high = true) (hlow : isLow low = true)
      (h : Spells raw v)
    : Spells (escapeU a b c d ++ escapeU a' b' c' d' ++ raw)
        (String.utf8EncodeChar (Char.ofNat (0x10000 + (high - 0xd800) * 0x400 + (low - 0xdc00))) ++ v)

def isDigit (b : UInt8) : Bool := decide (0x30 ≤ b ∧ b ≤ 0x39)

structure Number where
  minus : Bool
  int : Text
  frac : Option Text
  -- the letter, the sign and the digits of the exponent
  exp : Option (UInt8 × Option UInt8 × Text)

namespace Number

def Digits (text : Text) : Prop := text ≠ [] ∧ ∀ b ∈ text, isDigit b = true

structure Valid (n : Number) : Prop where
  int : Digits n.int ∧ (n.int.head? = some 0x30 → n.int = [0x30])
  frac : ∀ digits ∈ n.frac, Digits digits
  exp : ∀ e ∈ n.exp, (e.1 = 0x65 ∨ e.1 = 0x45) ∧ (∀ sign ∈ e.2.1, sign = 0x2b ∨ sign = 0x2d) ∧ Digits e.2.2

def text (n : Number) : Text :=
  (if n.minus then [0x2d] else []) ++ n.int ++ n.frac.elim [] (0x2e :: ·)
    ++ n.exp.elim [] fun e => e.1 :: e.2.1.toList ++ e.2.2

end Number

def literals : List Text :=
  [[0x74, 0x72, 0x75, 0x65], [0x66, 0x61, 0x6c, 0x73, 0x65], [0x6e, 0x75, 0x6c, 0x6c]]

inductive Form where
  | value
  | elements
  | members

abbrev Member := Text × Text

inductive Derives : Form → Text → List Member → Prop where
  | literal {s : Text} (h : s ∈ literals) : Derives .value s []
  | number {n : Number} (h : n.Valid) : Derives .value n.text []
  | string {raw : Text} (h : IsString raw) : Derives .value (quoted raw) []
  | emptyArray {w : Text} (hw : Blank w) : Derives .value (0x5b :: w ++ [0x5d]) []
  | array {s : Text} {ms : List Member} (h : Derives .elements s ms) : Derives .value (0x5b :: s ++ [0x5d]) ms
  | emptyObject {w : Text} (hw : Blank w) : Derives .value (0x7b :: w ++ [0x7d]) []
  | object {s : Text} {ms : List Member} (h : Derives .members s ms) : Derives .value (0x7b :: s ++ [0x7d]) ms
  | element {w s w' : Text} {ms : List Member} (hw : Blank w) (h : Derives .value s ms) (hw' : Blank w')
    : Derives .elements (w ++ s ++ w') ms
  | elements {s t : Text} {ms ns : List Member} (h : Derives .elements s ms) (h' : Derives .elements t ns)
    : Derives .elements (s ++ comma :: t) (ms ++ ns)
  | member {w w₁ w₂ w' name s : Text} {ms : List Member} (hw : Blank w) (hname : IsString name)
      (hw₁ : Blank w₁) (hw₂ : Blank w₂) (h : Derives .value s ms) (hw' : Blank w')
    : Derives .members (w ++ quoted name ++ w₁ ++ colon :: w₂ ++ s ++ w') ((name, s) :: ms)
  | members {s t : Text} {ms ns : List Member} (h : Derives .members s ms) (h' : Derives .members t ns)
    : Derives .members (s ++ comma :: t) (ms ++ ns)

structure Document (text : Text) (ms : List Member) : Prop where
  derives : ∃ w s w', Blank w ∧ Derives .value s ms ∧ Blank w' ∧ text = w ++ s ++ w'

def HasMember (ms : List Member) (name v : Text) : Prop :=
  ∃ m ∈ ms, ∃ raw, m.2 = quoted raw ∧ Spells m.1 name ∧ Spells raw v

/-!
The tokens of a text are its strings and the bytes outside of them that are not blank.
-/

inductive Token where
  | byte (b : UInt8)
  | string (raw : Text)

inductive Place where
  | outside
  | inside (raw : Text)
  | escaped (raw : Text)

namespace Place

def next (p : Place) (b : UInt8) : Place :=
  match p with
  | .outside => if b = quote then .inside [] else .outside
  | .inside raw =>
    if b = quote then .outside else if b = backslash then .escaped (raw ++ [b]) else .inside (raw ++ [b])
  | .escaped raw => .inside (raw ++ [b])

def emits (p : Place) (b : UInt8) : List Token :=
  match p with
  | .outside => if b = quote ∨ isBlank b = true then [] else [.byte b]
  | .inside raw => if b = quote then [.string raw] else []
  | .escaped _ => []

def after (p : Place) (text : Text) : Place := text.foldl next p

def tokens (p : Place) (text : Text) : List Token :=
  match text with
  | [] => []
  | b :: text => p.emits b ++ (p.next b).tokens text

variable (p : Place)

@[simp]
theorem after_nil : p.after [] = p := by
  rfl

@[simp]
theorem after_cons (b : UInt8) (text : Text) : p.after (b :: text) = (p.next b).after text := by
  rfl

@[simp]
theorem after_append (s t : Text) : p.after (s ++ t) = (p.after s).after t := by
  unfold after
  rw [List.foldl_append]

@[simp]
theorem tokens_nil : p.tokens [] = [] := by
  rfl

@[simp]
theorem tokens_cons (b : UInt8) (text : Text) : p.tokens (b :: text) = p.emits b ++ (p.next b).tokens text := by
  rfl

@[simp]
theorem tokens_append (s t : Text) : p.tokens (s ++ t) = p.tokens s ++ (p.after s).tokens t := by
  induction s generalizing p with
  | nil => rfl
  | cons b s ih =>
    rw [List.cons_append, tokens_cons, tokens_cons, after_cons, ih, List.append_assoc]

end Place

structure Lexes (text : Text) (ts : List Token) : Prop where
  after : Place.outside.after text = .outside
  tokens : Place.outside.tokens text = ts

namespace Lexes

theorem append {s t : Text} {ts us : List Token} (h : Lexes s ts) (h' : Lexes t us) : Lexes (s ++ t) (ts ++ us) where
  after := by rw [Place.after_append, h.after, h'.after]
  tokens := by rw [Place.tokens_append, h.after, h.tokens, h'.tokens]

theorem byte {b : UInt8} (hquote : b ≠ quote) (hblank : isBlank b = false) : Lexes [b] [.byte b] where
  after := by simp [Place.next, hquote]
  tokens := by simp [Place.emits, hquote, hblank]

theorem blank {w : Text} (h : Blank w) : Lexes w [] := by
  induction w with
  | nil => exact ⟨rfl, rfl⟩
  | cons b w ih =>
    have hb := h b (by simp)
    have hquote : b ≠ quote := by
      rintro rfl
      cases hb
    have hw := ih fun c hc => h c (by simp [hc])
    constructor
    . rw [Place.after_cons, Place.next, if_neg hquote, hw.after]
    . rw [Place.tokens_cons, Place.emits, if_pos (.inr hb), Place.next, if_neg hquote, hw.tokens]
      rfl

theorem bytes {s : Text} (h : ∀ b ∈ s, Solid b) : Lexes s (s.map .byte) := by
  induction s with
  | nil => exact ⟨rfl, rfl⟩
  | cons b s ih =>
    have hb := h b (by simp)
    exact (byte hb.1 hb.2).append (ih fun c hc => h c (by simp [hc]))

end Lexes

/-- The quotes and the backslashes of a string are behind backslashes; the escapes need not mean anything. -/
inductive Closed : Text → Prop where
  | nil : Closed []
  | plain {b : UInt8} {raw : Text} (hquote : b ≠ quote) (hbackslash : b ≠ backslash) (h : Closed raw)
    : Closed (b :: raw)
  | escape {b : UInt8} {raw : Text} (h : Closed raw) : Closed (backslash :: b :: raw)

namespace Closed

theorem of_free {raw : Text} (h : ∀ b ∈ raw, b ≠ quote ∧ b ≠ backslash) : Closed raw := by
  induction raw with
  | nil => exact .nil
  | cons b raw ih =>
    have hb := h b (by simp)
    exact .plain hb.1 hb.2 (ih fun c hc => h c (by simp [hc]))

theorem ne_of_hexDigit {b : UInt8} (h : (hexDigit b).isSome) : b ≠ quote ∧ b ≠ backslash := by
  constructor
  . rintro rfl
    cases h
  . rintro rfl
    cases h

theorem hexDigit_of_hex4 {a b c d : UInt8} (h : (hex4 a b c d).isSome)
    : (hexDigit a).isSome ∧ (hexDigit b).isSome ∧ (hexDigit c).isSome ∧ (hexDigit d).isSome := by
  unfold hex4 at h
  cases ha : hexDigit a <;> cases hb : hexDigit b <;> cases hc : hexDigit c <;> cases hd : hexDigit d <;>
    simp_all

theorem escapeU {a b c d : UInt8} (hhex : (hex4 a b c d).isSome) {raw : Text} (h : Closed raw)
    : Closed (Json.escapeU a b c d ++ raw) := by
  rcases hexDigit_of_hex4 hhex with ⟨ha, hb, hc, hd⟩
  have ha := ne_of_hexDigit ha
  have hb := ne_of_hexDigit hb
  have hc := ne_of_hexDigit hc
  have hd := ne_of_hexDigit hd
  exact .escape (.plain ha.1 ha.2 (.plain hb.1 hb.2 (.plain hc.1 hc.2 (.plain hd.1 hd.2 h))))

theorem of_isString {raw : Text} (h : IsString raw) : Closed raw := by
  induction h with
  | nil => exact .nil
  | plain hquote hbackslash _ _ ih => exact .plain hquote hbackslash ih
  | escape _ _ ih => exact .escape ih
  | unicode hhex _ ih => exact ih.escapeU hhex

theorem inside {raw : Text} (h : Closed raw) (read : Text)
    : (Place.inside read).after raw = .inside (read ++ raw) ∧ (Place.inside read).tokens raw = [] := by
  induction h generalizing read with
  | nil => simp
  | plain hquote hbackslash _ ih =>
    rw [Place.after_cons, Place.tokens_cons, Place.next, if_neg hquote, if_neg hbackslash, Place.emits,
      if_neg hquote, (ih _).1, (ih _).2, List.append_assoc]
    exact ⟨rfl, rfl⟩
  | @escape b raw _ ih =>
    have hquote : backslash ≠ quote := by decide
    rw [Place.after_cons, Place.tokens_cons, Place.next, if_neg hquote, if_pos rfl, Place.emits, if_neg hquote,
      Place.after_cons, Place.tokens_cons, Place.next, Place.emits, (ih _).1, (ih _).2]
    simp

theorem lexes {raw : Text} (h : Closed raw) : Lexes (quoted raw) [.string raw] := by
  have hinside := h.inside []
  unfold quoted
  constructor
  . rw [Place.after_append, Place.after_cons]
    change ((Place.inside []).after raw).after [quote] = .outside
    rw [hinside.1]
    rfl
  . rw [Place.tokens_append, Place.after_cons, Place.tokens_cons]
    change [] ++ (Place.inside []).tokens raw ++ ((Place.inside []).after raw).tokens [quote] = _
    rw [hinside.1, hinside.2]
    rfl

end Closed

/-!
The strings on both sides of a colon.
-/

def joined (t : Token) (ts : List Token) : List (Text × Text) :=
  match t, ts with
  | .string name, .byte b :: .string raw :: _ => if b = colon then [(name, raw)] else []
  | _, _ => []

def pairs (ts : List Token) : List (Text × Text) :=
  match ts with
  | [] => []
  | t :: ts => joined t ts ++ pairs ts

@[simp]
theorem pairs_nil : pairs [] = [] := by
  rfl

@[simp]
theorem pairs_byte (b : UInt8) (ts : List Token) : pairs (.byte b :: ts) = pairs ts := by
  rfl

theorem joined_cut (t : Token) (ts us : List Token) {b : UInt8} (hb : b ≠ colon)
    : joined t (ts ++ .byte b :: us) = joined t ts := by
  rcases t with c | name
  . rfl
  . rcases ts with - | ⟨c | raw, ts⟩
    . rcases us with - | ⟨c | raw, us⟩
      . rfl
      . rfl
      . exact if_neg hb
    . rcases ts with - | ⟨d | raw, ts⟩
      . rfl
      . rfl
      . rfl
    . rfl

theorem pairs_cut (ts us : List Token) {b : UInt8} (hb : b ≠ colon)
    : pairs (ts ++ .byte b :: us) = pairs ts ++ pairs us := by
  induction ts with
  | nil => rfl
  | cons t ts ih => rw [List.cons_append, pairs, pairs, joined_cut t ts us hb, ih, List.append_assoc]

theorem mem_of_mem_pairs {ts : List Token} {name raw : Text} (h : (name, raw) ∈ pairs ts)
    : .string name ∈ ts ∧ .string raw ∈ ts := by
  induction ts with
  | nil => cases h
  | cons t ts ih =>
    rcases List.mem_append.mp h with h | h
    . rcases t with c | name'
      . cases h
      . rcases ts with - | ⟨c | raw', ts⟩
        . cases h
        . rcases ts with - | ⟨d | raw', ts⟩
          . cases h
          . cases h
          . by_cases hcolon : c = colon
            . rw [joined, if_pos hcolon] at h
              cases List.mem_singleton.mp h
              simp
            . rw [joined, if_neg hcolon] at h
              cases h
        . cases h
    . have hmem := ih h
      exact ⟨List.mem_cons_of_mem _ hmem.1, List.mem_cons_of_mem _ hmem.2⟩

theorem mem_pairs (ts us : List Token) (name raw : Text)
    : (name, raw) ∈ pairs (ts ++ [.string name, .byte colon, .string raw] ++ us) := by
  induction ts with
  | nil => simp [pairs, joined]
  | cons t ts ih =>
    rw [List.cons_append, List.cons_append, pairs]
    exact List.mem_append_right _ ih

/-!
The pairs in the tokens of a text are members of it.
-/

theorem solid_of_isDigit {b : UInt8} (h : isDigit b = true) : Solid b := by
  constructor
  . rintro rfl
    cases h
  . rw [Bool.eq_false_iff]
    intro hblank
    simp only [isBlank, Bool.or_eq_true, beq_iff_eq] at hblank
    rcases hblank with ((rfl | rfl) | rfl) | rfl <;> cases h

theorem Number.solid_of_valid {n : Number} (h : n.Valid) : ∀ b ∈ n.text, Solid b := by
  intro b hb
  unfold text at hb
  rw [List.mem_append, List.mem_append, List.mem_append] at hb
  rcases hb with ((hb | hb) | hb) | hb
  . split at hb
    . cases List.mem_singleton.mp hb
      decide
    . cases hb
  . exact solid_of_isDigit (h.int.1.2 b hb)
  . cases hfrac : n.frac with
    | none =>
      rw [hfrac] at hb
      cases hb
    | some digits =>
      rw [hfrac] at hb
      rcases List.mem_cons.mp hb with rfl | hb
      . decide
      . exact solid_of_isDigit ((h.frac digits hfrac).2 b hb)
  . cases hexp : n.exp with
    | none =>
      rw [hexp] at hb
      cases hb
    | some e =>
      rw [hexp] at hb
      rcases h.exp e hexp with ⟨hletter, hsign, hdigits⟩
      rcases List.mem_append.mp hb with hb | hb
      . rcases List.mem_cons.mp hb with rfl | hb
        . rcases hletter with heq | heq <;> rw [heq] <;> decide
        . rcases hsign b (Option.mem_toList.mp hb) with rfl | rfl <;> decide
      . exact solid_of_isDigit (hdigits.2 b hb)

structure Lexed (form : Form) (s : Text) (ms : List Member) (ts : List Token) : Prop extends Lexes s ts where
  strings : ∀ raw, .string raw ∈ ts → IsString raw
  pairs : ∀ name raw, (name, raw) ∈ pairs ts → (name, quoted raw) ∈ ms
  -- a value that begins with a string is that string
  value : form = .value → ∀ raw us, ts = .string raw :: us → s = quoted raw

namespace Lexed

theorem pairs_map_byte (s : Text) : Json.pairs (s.map .byte) = [] := by
  induction s with
  | nil => rfl
  | cons b s ih => exact ih

theorem solid {s : Text} (h : ∀ b ∈ s, Solid b) : Lexed .value s [] (s.map .byte) where
  toLexes := .bytes h
  strings := by
    intro raw hmem
    rcases List.mem_map.mp hmem with ⟨b, -, heq⟩
    cases heq
  pairs := by
    intro name raw hmem
    rw [pairs_map_byte] at hmem
    cases hmem
  value := by
    intro _ raw us heq
    cases s with
    | nil => cases heq
    | cons b s => cases heq

theorem bracketed {s : Text} {ms : List Member} {ts : List Token} {left right : UInt8} (hs : Lexes s ts)
    (hstrings : ∀ raw, .string raw ∈ ts → IsString raw)
    (hpairs : ∀ name raw, (name, raw) ∈ Json.pairs ts → (name, quoted raw) ∈ ms) (hleft : Solid left)
    (hright : Solid right) (hcolon : right ≠ colon)
    : Lexed .value (left :: s ++ [right]) ms (.byte left :: ts ++ [.byte right]) where
  toLexes := ((Lexes.byte hleft.1 hleft.2).append hs).append (.byte hright.1 hright.2)
  strings := by
    intro raw hmem
    rw [List.cons_append, List.mem_cons, List.mem_append, List.mem_singleton] at hmem
    rcases hmem with heq | hmem | heq
    . cases heq
    . exact hstrings raw hmem
    . cases heq
  pairs := by
    intro name raw hmem
    rw [pairs_cut _ _ hcolon, pairs_byte, pairs_nil, List.append_nil] at hmem
    exact hpairs name raw hmem
  value := nofun

theorem joined {form : Form} {s t : Text} {ms ns : List Member} {ts us : List Token} (hs : Lexed form s ms ts)
    (ht : Lexed form t ns us) (hform : form ≠ .value)
    : Lexed form (s ++ comma :: t) (ms ++ ns) (ts ++ .byte comma :: us) where
  toLexes := hs.toLexes.append ((Lexes.byte (b := comma) (by decide) (by decide)).append ht.toLexes)
  strings := by
    intro raw hmem
    rw [List.mem_append, List.mem_cons] at hmem
    rcases hmem with hmem | heq | hmem
    . exact hs.strings raw hmem
    . cases heq
    . exact ht.strings raw hmem
  pairs := by
    intro name raw hmem
    rw [pairs_cut _ _ (by decide)] at hmem
    rcases List.mem_append.mp hmem with hmem | hmem
    . exact List.mem_append_left _ (hs.pairs name raw hmem)
    . exact List.mem_append_right _ (ht.pairs name raw hmem)
  value := by
    intro heq
    exact absurd heq hform

theorem member {w w₁ w₂ w' name s : Text} {ms : List Member} {ts : List Token} (hw : Blank w)
    (hname : IsString name) (hw₁ : Blank w₁) (hw₂ : Blank w₂) (hs : Lexed .value s ms ts) (hw' : Blank w')
    : Lexed .members (w ++ quoted name ++ w₁ ++ colon :: w₂ ++ s ++ w') ((name, s) :: ms)
        (.string name :: .byte colon :: ts) where
  toLexes := by
    have hkey := ((Lexes.blank hw).append (Closed.of_isString hname).lexes).append (.blank hw₁)
    have hcolon := (Lexes.byte (b := colon) (by decide) (by decide)).append (.blank hw₂)
    have hall := ((hkey.append hcolon).append hs.toLexes).append (.blank hw')
    simpa using hall
  strings := by
    intro raw hmem
    rw [List.mem_cons, List.mem_cons] at hmem
    rcases hmem with heq | heq | hmem
    . cases heq
      exact hname
    . cases heq
    . exact hs.strings raw hmem
  pairs := by
    intro name' raw hmem
    rcases List.mem_append.mp hmem with hmem | hmem
    . rcases ts with - | ⟨c | raw', ts⟩
      . cases hmem
      . cases hmem
      . cases List.mem_singleton.mp hmem
        rw [hs.value rfl raw ts rfl]
        exact List.mem_cons_self
    . exact List.mem_cons_of_mem _ (hs.pairs name' raw hmem)
  value := nofun

end Lexed

theorem lexed_of_derives {form : Form} {s : Text} {ms : List Member} (h : Derives form s ms)
    : ∃ ts, Lexed form s ms ts := by
  induction h with
  | literal h =>
    have hsolid : ∀ s ∈ literals, s.all (fun b => decide (Solid b)) = true := by decide
    exact ⟨_, .solid fun b hb => of_decide_eq_true (List.all_eq_true.mp (hsolid _ h) b hb)⟩
  | number h => exact ⟨_, .solid (Number.solid_of_valid h)⟩
  | @string raw h =>
    refine ⟨_, (Closed.of_isString h).lexes, ?_, ?_, ?_⟩
    . intro raw' hmem
      cases List.mem_singleton.mp hmem
      exact h
    . intro name raw hmem
      cases hmem
    . intro _ raw us heq
      cases heq
      rfl
  | emptyArray hw => exact ⟨_, .bracketed (.blank hw) nofun nofun (by decide) (by decide) (by decide)⟩
  | array h ih =>
    rcases ih with ⟨ts, ih⟩
    exact ⟨_, .bracketed ih.toLexes ih.strings ih.pairs (by decide) (by decide) (by decide)⟩
  | emptyObject hw => exact ⟨_, .bracketed (.blank hw) nofun nofun (by decide) (by decide) (by decide)⟩
  | object h ih =>
    rcases ih with ⟨ts, ih⟩
    exact ⟨_, .bracketed ih.toLexes ih.strings ih.pairs (by decide) (by decide) (by decide)⟩
  | element hw h hw' ih =>
    rcases ih with ⟨ts, ih⟩
    have hlexes := ((Lexes.blank hw).append ih.toLexes).append (Lexes.blank hw')
    rw [List.nil_append, List.append_nil] at hlexes
    exact ⟨ts, hlexes, ih.strings, ih.pairs, nofun⟩
  | elements h h' ih ih' =>
    rcases ih with ⟨ts, ih⟩
    rcases ih' with ⟨us, ih'⟩
    exact ⟨_, ih.joined ih' nofun⟩
  | member hw hname hw₁ hw₂ h hw' ih =>
    rcases ih with ⟨ts, ih⟩
    exact ⟨_, .member hw hname hw₁ hw₂ ih hw'⟩
  | members h h' ih ih' =>
    rcases ih with ⟨ts, ih⟩
    rcases ih' with ⟨us, ih'⟩
    exact ⟨_, ih.joined ih' nofun⟩

theorem mem_of_document {text : Text} {ms : List Member} (h : Document text ms) {before w w' name raw behind : Text}
    (heq : text = before ++ quoted name ++ w ++ colon :: w' ++ quoted raw ++ behind)
    (houtside : Place.outside.after before = .outside) (hname : Closed name) (hw : Blank w) (hw' : Blank w')
    (hraw : Closed raw)
    : (name, quoted raw) ∈ ms ∧ IsString name ∧ IsString raw := by
  rcases h.derives with ⟨v, s, v', hv, hderives, hv', htext⟩
  rcases lexed_of_derives hderives with ⟨ts, hts⟩
  have hlexes := ((Lexes.blank hv).append hts.toLexes).append (.blank hv')
  rw [List.nil_append, List.append_nil, ← htext] at hlexes
  have hcolon := (Lexes.byte (b := colon) (by decide) (by decide)).append (.blank hw')
  have hmember := ((hname.lexes.append (.blank hw)).append hcolon).append hraw.lexes
  have htokens := hlexes.tokens
  rw [heq] at htokens
  have hsplit : before ++ quoted name ++ w ++ colon :: w' ++ quoted raw ++ behind
      = before ++ (quoted name ++ w ++ ([colon] ++ w') ++ quoted raw) ++ behind := by
    simp
  rw [hsplit, Place.tokens_append, Place.tokens_append, Place.after_append, houtside, hmember.after,
    hmember.tokens] at htokens
  have hmem : (name, raw) ∈ pairs ts := by
    rw [← htokens]
    apply mem_pairs
  have hstrings := mem_of_mem_pairs hmem
  exact ⟨hts.pairs _ _ hmem, hts.strings _ hstrings.1, hts.strings _ hstrings.2⟩

theorem stands_of_derives {form : Form} {s : Text} {ms : List Member} (h : Derives form s ms) {name value : Text}
    (hmem : (name, value) ∈ ms)
    : ∃ before w w' behind, Blank w ∧ Blank w'
        ∧ s = before ++ quoted name ++ w ++ colon :: w' ++ value ++ behind := by
  induction h with
  | literal _ | number _ | string _ | emptyArray _ | emptyObject _ => cases hmem
  | array _ ih =>
    rcases ih hmem with ⟨before, w, w', behind, hw, hw', rfl⟩
    exact ⟨0x5b :: before, w, w', behind ++ [0x5d], hw, hw', by simp⟩
  | object _ ih =>
    rcases ih hmem with ⟨before, w, w', behind, hw, hw', rfl⟩
    exact ⟨0x7b :: before, w, w', behind ++ [0x7d], hw, hw', by simp⟩
  | @element v s v' _ _ _ _ ih =>
    rcases ih hmem with ⟨before, w, w', behind, hw, hw', rfl⟩
    exact ⟨v ++ before, w, w', behind ++ v', hw, hw', by simp⟩
  | @elements s t _ _ _ _ ih ih' | @members s t _ _ _ _ ih ih' =>
    rcases List.mem_append.mp hmem with hmem | hmem
    . rcases ih hmem with ⟨before, w, w', behind, hw, hw', rfl⟩
      exact ⟨before, w, w', behind ++ comma :: t, hw, hw', by simp⟩
    . rcases ih' hmem with ⟨before, w, w', behind, hw, hw', rfl⟩
      exact ⟨s ++ comma :: before, w, w', behind, hw, hw', by simp⟩
  | @member v w₁ w₂ v' other s _ hv _ hw₁ hw₂ _ _ ih =>
    rcases List.mem_cons.mp hmem with heq | hmem
    . cases heq
      exact ⟨v, w₁, w₂, v', hw₁, hw₂, rfl⟩
    . rcases ih hmem with ⟨before, w, w', behind, hw, hw', rfl⟩
      exact ⟨v ++ quoted other ++ w₁ ++ colon :: w₂ ++ before, w, w', behind ++ v', hw, hw', by simp⟩

/-- Every member stands in the text of its document. -/
theorem stands_of_document {text : Text} {ms : List Member} (h : Document text ms) {name value : Text}
    (hmem : (name, value) ∈ ms)
    : ∃ before w w' behind, Blank w ∧ Blank w'
        ∧ text = before ++ quoted name ++ w ++ colon :: w' ++ value ++ behind := by
  rcases h.derives with ⟨v, s, v', -, hderives, -, rfl⟩
  rcases stands_of_derives hderives hmem with ⟨before, w, w', behind, hw, hw', rfl⟩
  exact ⟨v ++ before, w, w', behind ++ v', hw, hw', by simp⟩

end Json
