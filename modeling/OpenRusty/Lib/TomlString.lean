import OpenRusty.Lib.Lexer
import Mathlib.Data.List.Chain

/-!
This module contains the strings of TOML in double quotes, on one line and on several ones, as they are
read behind their first quote. A text that is put between two quotes and read back is the same text if
it is plain, and less otherwise, as long as no two quotes stand together behind it.
-/

namespace Toml

/-- What a line end in a string on several lines is read as, which the language leaves open. -/
structure Dialect where
  lf : List Char
  crlf : List Char
  newlines : ∀ c ∈ lf ++ crlf, c = '\n' ∨ c = '\r'

def isControl (c : Char) : Bool := decide ((c.toNat < 0x20 ∧ c ≠ '\t') ∨ c.toNat = 0x7f)

def isBlank (c : Char) : Bool := c == ' ' || c == '\t'

section escape

inductive Escape where
  | start
  -- So many digits are missing, and the value of those that were read.
  | hex (digits : Nat) (value : Nat)

def escapeChar (c : Char) : Option Char :=
  match c with
  | 'b' => some (Char.ofNat 0x08)
  | 't' => some '\t'
  | 'n' => some '\n'
  | 'f' => some (Char.ofNat 0x0c)
  | 'r' => some '\r'
  | 'e' => some (Char.ofNat 0x1b)
  | '"' => some '"'
  | '\\' => some '\\'
  | _ => none

def escapeDigits (c : Char) : Option Nat :=
  match c with
  | 'x' => some 2
  | 'u' => some 4
  | 'U' => some 8
  | _ => none

def hexValue (c : Char) : Option Nat :=
  if '0' ≤ c ∧ c ≤ '9' then
    some (c.toNat - '0'.toNat)
  else if 'a' ≤ c ∧ c ≤ 'f' then
    some (c.toNat - 'a'.toNat + 10)
  else if 'A' ≤ c ∧ c ≤ 'F' then
    some (c.toNat - 'A'.toNat + 10)
  else
    none

def scalar (n : Nat) : Option Char := if n.isValidChar then some (Char.ofNat n) else none

def Escape.step (e : Escape) (c : Char) : Option (Escape ⊕ Char) :=
  match e with
  | .start =>
    match escapeChar c with
    | some d => some (.inr d)
    | none => (escapeDigits c).map fun digits => .inl (.hex digits 0)
  | .hex digits value =>
    match hexValue c with
    | none => none
    | some d =>
      if digits = 1 then
        (scalar (16 * value + d)).map .inr
      else
        some (.inl (.hex (digits - 1) (16 * value + d)))

end escape

section basic

def basic : Lexer (Option Escape) where
  step mode c :=
    match mode with
    | some e =>
      match e.step c with
      | some (.inl e) => .next [] (some e)
      | some (.inr d) => .next [d] none
      | none => .fail
    | none =>
      if c = '"' then
        .close [] true
      else if c = '\\' then
        .next [] (some .start)
      else if isControl c then
        .fail
      else
        .next [c] none
  atEnd _ := none

end basic

section multiline

inductive Multiline where
  -- So many quotes stand just before.
  | text (quotes : Nat)
  | escape (e : Escape)
  -- Behind a backslash and blanks, at the end of a line.
  | lineEnd
  -- All blank space before the next character is left out.
  | trim
  | cr (keep : Bool)

def Multiline.plain (d : Dialect) (out : List Char) (c : Char) : Lexer.Action Multiline :=
  if c = '\\' then
    .next out (.escape .start)
  else if c = '\n' then
    .next (out ++ d.lf) (.text 0)
  else if c = '\r' then
    .next out (.cr true)
  else if isControl c then
    .fail
  else
    .next (out ++ [c]) (.text 0)

def Multiline.lineBreak (c : Char) : Lexer.Action Multiline :=
  if isBlank c then
    .next [] .lineEnd
  else if c = '\n' then
    .next [] .trim
  else if c = '\r' then
    .next [] (.cr false)
  else
    .fail

def multiline (d : Dialect) : Lexer Multiline where
  step mode c :=
    match mode with
    | .text quotes =>
      if c = '"' then
        if quotes = 4 then .close ['"', '"'] true else .next [] (.text (quotes + 1))
      else if 3 ≤ quotes then
        .close (List.replicate (quotes - 3) '"') false
      else
        Multiline.plain d (List.replicate quotes '"') c
    | .escape e =>
      match e.step c with
      | some (.inl e) => .next [] (.escape e)
      | some (.inr d) => .next [d] (.text 0)
      | none =>
        match e with
        | .start => Multiline.lineBreak c
        | .hex _ _ => .fail
    | .lineEnd => Multiline.lineBreak c
    | .trim =>
      if isBlank c || c == '\n' then
        .next [] .trim
      else if c = '\r' then
        .next [] (.cr false)
      else if c = '"' then
        .next [] (.text 1)
      else
        Multiline.plain d [] c
    | .cr keep =>
      if c = '\n' then
        if keep then .next d.crlf (.text 0) else .next [] .trim
      else
        .fail
  atEnd mode :=
    match mode with
    | .text quotes => if 3 ≤ quotes then some (List.replicate (quotes - 3) '"') else none
    | _ => none

def dropNewline (chars : List Char) : List Char :=
  match chars with
  | '\n' :: rest => rest
  | '\r' :: '\n' :: rest => rest
  | chars => chars

end multiline

def readString (d : Dialect) (chars : List Char) : Option (List Char × List Char) :=
  match chars with
  | '"' :: '"' :: rest => (multiline d).read (.text 0) (dropNewline rest)
  | chars => basic.read none chars

def Plain (text : List Char) : Prop := ∀ c ∈ text, c ≠ '"' ∧ c ≠ '\\' ∧ isControl c = false

instance (text : List Char) : Decidable (Plain text) :=
  List.decidableBAll (fun c => c ≠ '"' ∧ c ≠ '\\' ∧ isControl c = false) text

section plain

theorem basic_read_plain {text : List Char} (h : Plain text) (rest : List Char)
    : basic.read none (text ++ '"' :: rest) = some (text, rest) := by
  induction text with
  | nil => rfl
  | cons c text ih =>
    obtain ⟨hquote, hbackslash, hcontrol⟩ := h c List.mem_cons_self
    have hstep : basic.step none c = .next [c] none := by
      simp [basic, hquote, hbackslash, hcontrol]
    rw [List.cons_append, Lexer.read_next hstep, ih fun c' hc' => h c' (List.mem_cons_of_mem _ hc')]
    rfl

theorem readString_plain {d : Dialect} {text : List Char} (h : Plain text) {rest : List Char}
    (hrest : rest.head? ≠ some '"')
    : readString d (text ++ '"' :: rest) = some (text, rest) := by
  rw [← basic_read_plain h rest]
  unfold readString
  split
  . next rest' heq =>
    exfalso
    cases text with
    | nil =>
      rw [List.nil_append, List.cons_eq_cons] at heq
      rw [heq.2] at hrest
      exact hrest rfl
    | cons c text =>
      rw [List.cons_append, List.cons_eq_cons] at heq
      exact (h c List.mem_cons_self).1 heq.1
  . rfl

end plain

section weight

def weigh (c : Char) : Nat := if c = '\n' ∨ c = '\r' then 0 else 1

theorem weigh_le (c : Char) : weigh c ≤ 1 := by
  unfold weigh
  split <;> simp

theorem weight_newlines {chars : List Char} (h : ∀ c ∈ chars, c = '\n' ∨ c = '\r') : Lexer.weight weigh chars = 0 := by
  induction chars with
  | nil => rfl
  | cons c chars ih =>
    rw [Lexer.weight_cons, ih fun c' hc' => h c' (List.mem_cons_of_mem _ hc')]
    simp [weigh, h c List.mem_cons_self]

theorem weight_replicate_quote (n : Nat) : Lexer.weight weigh (List.replicate n '"') = n := by
  induction n with
  | zero => rfl
  | succ n ih =>
    rw [List.replicate_succ, Lexer.weight_cons, ih]
    simp [weigh, Nat.add_comm]

theorem weigh_of_escape {e : Escape} {c : Char} {r : Escape ⊕ Char} (h : e.step c = some r) : weigh c = 1 := by
  unfold weigh
  split
  . next hc =>
    exfalso
    rcases hc with rfl | rfl
    . cases e <;> cases h
    . cases e <;> cases h
  . rfl

theorem basic_bounded : basic.Bounded weigh fun _ => 0 where
  next := by
    intro mode c out mode' h
    simp only [basic] at h
    split at h
    . next e =>
      split at h
      . cases h
        simp
      . next d hstep =>
        cases h
        have := weigh_le d
        simp [weigh_of_escape hstep, this]
      . cases h
    . split at h
      . cases h
      . split at h
        . cases h
          simp
        . split at h
          . cases h
          . cases h
            simp
  close := by
    intro mode c out taken h
    simp only [basic] at h
    split at h
    . split at h <;> cases h
    . split at h
      . cases h
        simp
      . split at h
        . cases h
        . split at h <;> cases h

variable {text tail v rest : List Char}

theorem basic_read_quote {mode : Option Escape} (h : basic.read mode ('"' :: '\n' :: tail) = some (v, rest))
    : v = [] := by
  cases mode with
  | none =>
    cases h
    rfl
  | some e =>
    cases e with
    | start =>
      cases h
    | hex digits value =>
      cases h

theorem basic_weight_le {mode : Option Escape} (h : basic.read mode (text ++ '"' :: '\n' :: tail) = some (v, rest))
    : Lexer.weight weigh v ≤ Lexer.weight weigh text := by
  rcases basic_bounded.read_append h with hle | ⟨out, mode', v', -, hread, rfl, hle⟩
  . simpa using hle
  . rw [basic_read_quote hread, List.append_nil]
    simpa using hle

theorem basic_read_eq (h : basic.read none (text ++ '"' :: '\n' :: tail) = some (v, rest))
    : (v = text ∧ Plain text) ∨ Lexer.weight weigh v < Lexer.weight weigh text := by
  induction text generalizing v with
  | nil =>
    cases h
    exact .inl ⟨rfl, by simp [Plain]⟩
  | cons c text ih =>
    by_cases hquote : c = '"'
    . subst hquote
      cases h
      right
      rw [Lexer.weight_cons, Lexer.weight_nil]
      exact Nat.add_pos_left (by decide) _
    by_cases hbackslash : c = '\\'
    . subst hbackslash
      have hstep : basic.step none '\\' = .next [] (some .start) := rfl
      rw [List.cons_append, Lexer.read_next hstep] at h
      obtain ⟨⟨v', rest'⟩, hread, heq⟩ := Option.map_eq_some_iff.mp h
      cases heq
      have := basic_weight_le hread
      right
      simp only [List.nil_append, Lexer.weight_cons]
      simp [weigh]
      omega
    by_cases hcontrol : isControl c = true
    . have hstep : basic.step none c = .fail := by
        simp [basic, hquote, hbackslash, hcontrol]
      rw [List.cons_append, Lexer.read_fail hstep] at h
      cases h
    . rw [Bool.not_eq_true] at hcontrol
      have hstep : basic.step none c = .next [c] none := by
        simp [basic, hquote, hbackslash, hcontrol]
      rw [List.cons_append, Lexer.read_next hstep] at h
      obtain ⟨⟨v', rest'⟩, hread, heq⟩ := Option.map_eq_some_iff.mp h
      cases heq
      rcases ih hread with ⟨rfl, hplain⟩ | hlt
      . left
        refine ⟨rfl, ?_⟩
        intro c' hc'
        rcases List.mem_cons.mp hc' with rfl | hc'
        . exact ⟨hquote, hbackslash, hcontrol⟩
        . exact hplain c' hc'
      . right
        simpa using hlt

end weight

section multiline

variable {d : Dialect}

def Multiline.held (mode : Multiline) : Nat :=
  match mode with
  | .text quotes => quotes
  | _ => 0

theorem plain_next {out out' : List Char} {c : Char} {mode : Multiline} (h : Multiline.plain d out c = .next out' mode)
    : Lexer.weight weigh out' ≤ Lexer.weight weigh out + weigh c ∧ mode.held = 0 ∧ (c = '\n' → mode = .text 0) := by
  unfold Multiline.plain at h
  split at h
  . next hc =>
    cases h
    exact ⟨by omega, rfl, by rintro rfl; cases hc⟩
  . split at h
    . cases h
      have := weight_newlines fun c' hc' => d.newlines c' (List.mem_append_left _ hc')
      exact ⟨by rw [Lexer.weight_append]; omega, rfl, fun _ => rfl⟩
    . next hnewline =>
      split at h
      . cases h
        exact ⟨by omega, rfl, fun hc => absurd hc hnewline⟩
      . split at h
        . cases h
        . cases h
          exact ⟨by simp, rfl, fun _ => rfl⟩

theorem plain_close {out out' : List Char} {c : Char} {taken : Bool} : Multiline.plain d out c ≠ .close out' taken := by
  unfold Multiline.plain
  split_ifs <;> simp

theorem lineBreak_next {out : List Char} {c : Char} {mode : Multiline} (h : Multiline.lineBreak c = .next out mode)
    : out = [] ∧ mode.held = 0 ∧ (c = '\n' → mode = .trim) := by
  unfold Multiline.lineBreak at h
  split at h
  . next hblank =>
    cases h
    exact ⟨rfl, rfl, by rintro rfl; cases hblank⟩
  . split at h
    . cases h
      exact ⟨rfl, rfl, fun _ => rfl⟩
    . next hnewline =>
      split at h
      . cases h
        exact ⟨rfl, rfl, fun hc => absurd hc hnewline⟩
      . cases h

theorem lineBreak_close {out : List Char} {c : Char} {taken : Bool} : Multiline.lineBreak c ≠ .close out taken := by
  unfold Multiline.lineBreak
  split_ifs <;> simp

theorem text_next {quotes : Nat} {mode : Multiline} {c : Char} {out : List Char}
    (h : (multiline d).step (.text quotes) c = .next out mode)
    : Lexer.weight weigh out + mode.held ≤ quotes + weigh c ∧ mode.held ≤ (if c = '"' then quotes + 1 else 0)
        ∧ (c = '\n' → mode = .text 0) := by
  simp only [multiline] at h
  split at h
  . next hquote =>
    subst hquote
    split at h
    . cases h
    . cases h
      simp [Multiline.held, weigh]
  . next hquote =>
    split at h
    . cases h
    . obtain ⟨hle, hheld, hnewline⟩ := plain_next h
      rw [weight_replicate_quote] at hle
      rw [hheld]
      exact ⟨hle, Nat.zero_le _, hnewline⟩

theorem escape_next {e : Escape} {mode : Multiline} {c : Char} {out : List Char}
    (h : (multiline d).step (.escape e) c = .next out mode)
    : Lexer.weight weigh out + mode.held ≤ weigh c ∧ mode.held = 0 ∧ (c = '\n' → mode = .trim) := by
  simp only [multiline] at h
  split at h
  . next hstep =>
    cases h
    refine ⟨by simp [Multiline.held], rfl, ?_⟩
    rintro rfl
    have := weigh_of_escape hstep
    simp [weigh] at this
  . next ch hstep =>
    cases h
    have hone := weigh_of_escape hstep
    have := weigh_le ch
    refine ⟨by simp [Multiline.held, hone, this], rfl, ?_⟩
    rintro rfl
    simp [weigh] at hone
  . split at h
    . obtain ⟨rfl, hheld, hnewline⟩ := lineBreak_next h
      rw [hheld]
      exact ⟨by simp, rfl, hnewline⟩
    . cases h

theorem trim_next {mode : Multiline} {c : Char} {out : List Char}
    (h : (multiline d).step .trim c = .next out mode)
    : Lexer.weight weigh out + mode.held ≤ weigh c ∧ mode.held ≤ (if c = '"' then 1 else 0)
        ∧ (c = '\n' → mode = .trim) := by
  simp only [multiline] at h
  split at h
  . cases h
    exact ⟨by simp [Multiline.held], Nat.zero_le _, fun _ => rfl⟩
  . next hblank =>
    have hnewline : c ≠ '\n' := by
      rintro rfl
      exact hblank (by simp)
    split at h
    . cases h
      exact ⟨by simp [Multiline.held], Nat.zero_le _, fun hc => absurd hc hnewline⟩
    . split at h
      . next hquote =>
        subst hquote
        cases h
        simp [Multiline.held, weigh]
      . obtain ⟨hle, hheld, -⟩ := plain_next h
        rw [hheld]
        exact ⟨by simpa using hle, Nat.zero_le _, fun hc => absurd hc hnewline⟩

theorem multiline_next {mode mode' : Multiline} {c : Char} {out : List Char}
    (h : (multiline d).step mode c = .next out mode')
    : Lexer.weight weigh out + mode'.held ≤ mode.held + weigh c
        ∧ mode'.held ≤ (if c = '"' then mode.held + 1 else 0)
        ∧ (c = '\n' → mode' = .text 0 ∨ mode' = .trim) := by
  cases mode with
  | text quotes =>
    obtain ⟨hle, hheld, hnewline⟩ := text_next h
    exact ⟨hle, hheld, fun hc => .inl (hnewline hc)⟩
  | escape e =>
    obtain ⟨hle, hheld, hnewline⟩ := escape_next h
    refine ⟨by simpa [Multiline.held] using hle, ?_, fun hc => .inr (hnewline hc)⟩
    rw [hheld]
    exact Nat.zero_le _
  | lineEnd =>
    obtain ⟨rfl, hheld, hnewline⟩ := lineBreak_next h
    rw [hheld]
    exact ⟨by simp, Nat.zero_le _, fun hc => .inr (hnewline hc)⟩
  | trim =>
    obtain ⟨hle, hheld, hnewline⟩ := trim_next h
    exact ⟨by simpa [Multiline.held] using hle, hheld, fun hc => .inr (hnewline hc)⟩
  | cr keep =>
    simp only [multiline] at h
    split at h
    . split at h
      . cases h
        have := weight_newlines fun c' hc' => d.newlines c' (List.mem_append_right _ hc')
        exact ⟨by simp [this, Multiline.held], Nat.zero_le _, fun _ => .inl rfl⟩
      . cases h
        exact ⟨by simp [Multiline.held], Nat.zero_le _, fun _ => .inr rfl⟩
    . cases h

theorem multiline_close {mode : Multiline} {c : Char} {out : List Char} {taken : Bool}
    (h : (multiline d).step mode c = .close out taken)
    : 3 ≤ mode.held ∧ Lexer.weight weigh out ≤ mode.held + weigh c := by
  simp only [multiline] at h
  split at h
  . next quotes =>
    split at h
    . split at h
      . next hfour =>
        cases h
        subst hfour
        exact ⟨by decide, by simp [Multiline.held, weigh]; omega⟩
      . cases h
    . split at h
      . next hthree =>
        cases h
        rw [weight_replicate_quote]
        exact ⟨hthree, by simp only [Multiline.held]; omega⟩
      . exact absurd h plain_close
  . split at h
    . cases h
    . cases h
    . split at h
      . exact absurd h lineBreak_close
      . cases h
  . exact absurd h lineBreak_close
  . split at h
    . cases h
    . split at h
      . cases h
      . split at h
        . cases h
        . exact absurd h plain_close
  . split at h
    . split at h <;> cases h
    . cases h

theorem multiline_bounded : (multiline d).Bounded weigh Multiline.held where
  next h := (multiline_next h).1
  close h := (multiline_close h).2

def Sparse (chars : List Char) : Prop := chars.IsChain fun a b => ¬(a = '"' ∧ b = '"')

instance (chars : List Char) : Decidable (Sparse chars) := inferInstanceAs (Decidable (List.IsChain _ chars))

theorem multiline_open {chars : List Char} (hsparse : Sparse chars) {mode : Multiline} (hheld : mode.held ≤ 1)
    (hhead : mode.held = 1 → chars.head? ≠ some '"')
    : (multiline d).read mode chars = none := by
  induction chars generalizing mode with
  | nil =>
    have hend : (multiline d).atEnd mode = none := by
      cases mode with
      | text quotes =>
        simp only [Multiline.held] at hheld
        simp [multiline]
        omega
      | _ => rfl
    rw [Lexer.read, hend]
    rfl
  | cons c chars ih =>
    cases hstep : (multiline d).step mode c with
    | fail => exact Lexer.read_fail hstep
    | close out taken =>
      have := (multiline_close hstep).1
      omega
    | next out mode' =>
      obtain ⟨-, hle, -⟩ := multiline_next hstep
      have hrest : Sparse chars := hsparse.tail
      by_cases hquote : c = '"'
      . subst hquote
        rw [if_pos rfl] at hle
        have hzero : mode.held ≠ 1 := fun h => hhead h rfl
        rw [Lexer.read_next hstep, ih hrest (by omega)]
        . rfl
        . intro _ hnext
          cases chars with
          | nil => cases hnext
          | cons c' chars =>
            cases hnext
            exact hsparse.rel ⟨rfl, rfl⟩
      . rw [if_neg hquote] at hle
        rw [Lexer.read_next hstep, ih hrest (by omega) (by omega)]
        rfl

variable {text tail v rest : List Char}

theorem multiline_weight_le (hsparse : Sparse tail)
    (h : (multiline d).read (.text 0) (text ++ '"' :: '\n' :: tail) = some (v, rest))
    : Lexer.weight weigh v ≤ Lexer.weight weigh text + 1 := by
  have hsplit : text ++ '"' :: '\n' :: tail = text ++ ['"'] ++ ['\n'] ++ tail := by simp
  rw [hsplit] at h
  rcases multiline_bounded.read_append h with hle | ⟨out, mode, v', hrun, hread, -, -⟩
  . simpa [Multiline.held, weigh] using hle
  . exfalso
    obtain ⟨before, out', hstep⟩ := Lexer.step_of_run_append hrun
    have hheld : mode.held = 0 := by
      rcases (multiline_next hstep).2.2 rfl with rfl | rfl
      . rfl
      . rfl
    rw [multiline_open hsparse (by omega) (by omega)] at hread
    cases hread

theorem dropNewline_quote (text tail : List Char)
    : ∃ text', dropNewline (text ++ '"' :: tail) = text' ++ '"' :: tail
        ∧ Lexer.weight weigh text' ≤ Lexer.weight weigh text := by
  unfold dropNewline
  split
  . next rest heq =>
    cases text with
    | nil => cases heq
    | cons c text =>
      cases heq
      exact ⟨text, rfl, by simp⟩
  . next rest heq =>
    match text, heq with
    | [], heq => cases heq
    | [c], heq => cases heq
    | c :: c' :: text, heq =>
      cases heq
      refine ⟨text, rfl, ?_⟩
      simp only [Lexer.weight_cons]
      omega
  . exact ⟨text, rfl, le_refl _⟩

theorem readString_quote (hsparse : Sparse tail) (h : readString d (text ++ '"' :: '\n' :: tail) = some (v, rest))
    : (v = text ∧ Plain text) ∨ Lexer.weight weigh v < Lexer.weight weigh text := by
  unfold readString at h
  split at h
  . next rest' heq =>
    match text, heq with
    | [], heq => cases heq
    | [c], heq =>
      -- The quote of the text and the one behind it begin a string that does not end.
      cases heq
      have hnone : (multiline d).read (.text 0) tail = none :=
        multiline_open hsparse (by decide) (by simp [Multiline.held])
      rw [dropNewline, hnone] at h
      cases h
    | c :: c' :: text, heq =>
      cases heq
      obtain ⟨text', hdrop, hle⟩ := dropNewline_quote text ('\n' :: tail)
      change (multiline d).read (.text 0) (dropNewline (text ++ '"' :: '\n' :: tail)) = some (v, rest) at h
      rw [hdrop] at h
      have := multiline_weight_le hsparse h
      right
      simp only [Lexer.weight_cons]
      simp only [weigh]
      simp
      omega
  . exact basic_read_eq h

end multiline

end Toml
