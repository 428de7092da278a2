import Mathlib.Data.List.TakeWhile
import OpenRusty.Lib.Lines

/-!
This module contains the text exposition format of metrics (version 0.0.4): how a text is read as samples,
line by line, and the lines that are read back as what they were written for. The lines with the help and
the type of a metric are comments here, they carry no sample.
-/

namespace Exposition

inductive Value where
  | integer (n : Nat)
  | other (text : String)
  deriving DecidableEq, Repr

structure Sample where
  name : String
  labels : List (String × String)
  value : Value
  deriving DecidableEq, Repr

namespace Sample

def SameSeries (a b : Sample) : Prop := a.name = b.name ∧ a.labels.Perm b.labels

theorem labels_eq_of_perm {xs ys : List (String × String)} (h : xs.Perm ys)
    (hnames : xs.map Prod.fst = ys.map Prod.fst) (hnodup : (xs.map Prod.fst).Nodup)
    : xs = ys := by
  induction xs generalizing ys with
  | nil => exact (List.nil_perm.mp h).symm
  | cons x xs ih =>
    cases ys with
    | nil => cases hnames
    | cons y ys =>
      rw [List.map_cons, List.map_cons, List.cons.injEq] at hnames
      rw [List.map_cons, List.nodup_cons] at hnodup
      have hx : x = y := by
        rcases List.mem_cons.mp (h.subset List.mem_cons_self) with hx | hx
        . exact hx
        . have hname := List.mem_map_of_mem (f := Prod.fst) hx
          rw [← hnames.2] at hname
          exact absurd hname hnodup.1
      subst hx
      rw [ih h.cons_inv hnames.2 hnodup.2]

theorem SameSeries.labels_eq {a b : Sample} (h : a.SameSeries b)
    (hnames : a.labels.map Prod.fst = b.labels.map Prod.fst) (hnodup : (a.labels.map Prod.fst).Nodup)
    : a.labels = b.labels :=
  labels_eq_of_perm h.2 hnames hnodup

theorem SameSeries.symm {a b : Sample} (h : a.SameSeries b) : b.SameSeries a := ⟨h.1.symm, h.2.symm⟩

end Sample

def Distinct (samples : List Sample) : Prop := samples.Pairwise fun a b => ¬a.SameSeries b

theorem Distinct.perm {xs ys : List Sample} (h : Distinct xs) (hperm : xs.Perm ys) : Distinct ys :=
  (hperm.pairwise_iff fun hne hsame => hne hsame.symm).mp h

theorem distinct_flatMap_iff {families : List (List String × List Sample)}
    (hnames : ∀ f ∈ families, ∀ s ∈ f.2, s.name ∈ f.1)
    (hdisjoint : families.Pairwise fun f g => ∀ name ∈ f.1, name ∉ g.1)
    : Distinct (families.flatMap Prod.snd) ↔ ∀ f ∈ families, Distinct f.2 := by
  unfold Distinct
  rw [List.pairwise_flatMap]
  constructor
  . intro h
    exact h.1
  . intro h
    refine ⟨h, ?_⟩
    apply hdisjoint.imp_of_mem
    intro f g hf hg hfg s hs t ht hsame
    apply hfg s.name (hnames f hf s hs)
    rw [hsame.1]
    exact hnames g hg t ht

def isBlank (c : Char) : Bool := c == ' ' || c == '\t'

def isLabelStart (c : Char) : Bool := c.isAlpha || c == '_'

def isLabelChar (c : Char) : Bool := isLabelStart c || c.isDigit

def isNameStart (c : Char) : Bool := isLabelStart c || c == ':'

def isNameChar (c : Char) : Bool := isLabelChar c || c == ':'

def skipBlanks (text : List Char) : List Char := text.dropWhile isBlank

def expect (c : Char) (text : List Char) : Option (List Char) :=
  match skipBlanks text with
  | [] => none
  | d :: text => if d = c then some text else none

def word (start more : Char → Bool) (text : List Char) : Option (String × List Char) :=
  match skipBlanks text with
  | [] => none
  | c :: text =>
    if start c then some (String.ofList (c :: text.takeWhile more), text.dropWhile more) else none

def unescape (c : Char) : Option Char :=
  [('\\', '\\'), ('"', '"'), ('n', '\n')].lookup c

def labelValue (text : List Char) : Option (List Char × List Char) :=
  match text with
  | [] => none
  | c :: text =>
    if c = '"' then
      some ([], text)
    else if c = '\\' then
      match text with
      | [] => none
      | e :: text => (unescape e).bind fun e => (labelValue text).map fun r => (e :: r.1, r.2)
    else
      (labelValue text).map fun r => (c :: r.1, r.2)

def labels (fuel : Nat) (text : List Char) : Option (List (String × String) × List Char) :=
  match fuel with
  | 0 => none
  | fuel + 1 =>
    match expect '}' text with
    | some text => some ([], text)
    | none =>
      (word isLabelStart isLabelChar text).bind fun name =>
        ((expect '=' name.2).bind (expect '"')).bind fun text =>
          (labelValue text).bind fun value =>
            match expect ',' value.2 with
            | some text =>
              (labels fuel text).map fun r => ((name.1, String.ofList value.1) :: r.1, r.2)
            | none => (expect '}' value.2).map fun text => ([(name.1, String.ofList value.1)], text)

def readValue (text : String) : Value :=
  if !text.toList.isEmpty && text.toList.all Char.isDigit then
    .integer (Nat.ofDigitChars 10 text.toList 0)
  else
    .other text

def isTimestamp (text : List Char) : Bool :=
  match text with
  | [] => true
  | c :: text =>
    if c = '-' then
      !(text.takeWhile Char.isDigit).isEmpty && (skipBlanks (text.dropWhile Char.isDigit)).isEmpty
    else
      c.isDigit && (skipBlanks (text.dropWhile Char.isDigit)).isEmpty

def sampleOf (line : List Char) : Option Sample :=
  (word isNameStart isNameChar line).bind fun name =>
    let labelled :=
      match expect '{' name.2 with
      | some text => labels (text.length + 1) text
      | none => some ([], name.2)
    labelled.bind fun r =>
      let value := (skipBlanks r.2).takeWhile fun c => !isBlank c
      let rest := (skipBlanks r.2).dropWhile fun c => !isBlank c
      if value.isEmpty || !isTimestamp (skipBlanks rest) then
        none
      else
        some { name := name.1, labels := r.1, value := readValue (String.ofList value) }

/-- A line that carries no sample is read as `some none`. -/
def readLine (line : List Char) : Option (Option Sample) :=
  match skipBlanks line with
  | [] => some none
  | c :: _ => if c = '#' then some none else (sampleOf line).map some

def readLines (lines : List (List Char)) : Option (List Sample) :=
  match lines with
  | [] => some []
  | line :: lines =>
    (readLine line).bind fun sample => (readLines lines).map fun samples => sample.toList ++ samples

def parse (text : List Char) : Option (List Sample) :=
  if (Lines.cut '\n' [] text).2.isEmpty then
    readLines (Lines.cut '\n' [] text).1
  else
    none

/-!
The text of a sample and what it is read as.
-/

def escape (text : List Char) : List Char :=
  text.flatMap fun c =>
    if c = '\\' then
      ['\\', '\\']
    else if c = '"' then
      ['\\', '"']
    else if c = '\n' then
      ['\\', 'n']
    else
      [c]

theorem labelValue_quote (text : List Char) : labelValue ('"' :: text) = some ([], text) := by
  rw [labelValue.eq_def]
  exact if_pos rfl

theorem labelValue_escaped {e c : Char} (h : unescape e = some c) (text : List Char)
    : labelValue ('\\' :: e :: text) = (labelValue text).map fun r => (c :: r.1, r.2) := by
  rw [labelValue.eq_def]
  dsimp only
  rw [if_neg (by decide), if_pos rfl, h, Option.bind_some]

theorem labelValue_plain {c : Char} (hquote : c ≠ '"') (hbackslash : c ≠ '\\') (text : List Char)
    : labelValue (c :: text) = (labelValue text).map fun r => (c :: r.1, r.2) := by
  rw [labelValue.eq_def]
  dsimp only
  rw [if_neg hquote, if_neg hbackslash]

theorem labelValue_escape (v rest : List Char) : labelValue (escape v ++ '"' :: rest) = some (v, rest) := by
  induction v with
  | nil => exact labelValue_quote rest
  | cons c v ih =>
    unfold escape at ih ⊢
    rw [List.flatMap_cons, List.append_assoc]
    split
    . next hbackslash =>
      subst hbackslash
      rw [List.cons_append, List.singleton_append, labelValue_escaped (c := '\\') (by decide), ih]
      rfl
    . next hbackslash =>
      split
      . next hquote =>
        subst hquote
        rw [List.cons_append, List.singleton_append, labelValue_escaped (c := '"') (by decide), ih]
        rfl
      . next hquote =>
        split
        . next hnewline =>
          subst hnewline
          rw [List.cons_append, List.singleton_append, labelValue_escaped (c := '\n') (by decide), ih]
          rfl
        . rw [List.singleton_append, labelValue_plain hquote hbackslash, ih]
          rfl

theorem newline_notMem_escape (v : List Char) : '\n' ∉ escape v := by
  unfold escape
  rw [List.mem_flatMap]
  rintro ⟨c, -, hmem⟩
  split at hmem
  . simp at hmem
  . split at hmem
    . simp at hmem
    . split at hmem
      . simp at hmem
      . next hnewline =>
        rw [List.mem_singleton] at hmem
        exact hnewline hmem.symm

theorem escape_of_free {v : List Char} (h : ∀ c ∈ v, c ≠ '\\' ∧ c ≠ '"' ∧ c ≠ '\n') : escape v = v := by
  induction v with
  | nil => rfl
  | cons c v ih =>
    have hc := h c (by simp)
    have hv := ih fun d hd => h d (by simp [hd])
    unfold escape at hv ⊢
    rw [List.flatMap_cons, hv, if_neg hc.1, if_neg hc.2.1, if_neg hc.2.2]
    rfl

theorem skipBlanks_cons {c : Char} (h : isBlank c = false) (text : List Char) : skipBlanks (c :: text) = c :: text := by
  unfold skipBlanks
  rw [List.dropWhile_cons_of_neg (by simp [h])]

theorem expect_cons {c : Char} (h : isBlank c = false) (text : List Char) : expect c (c :: text) = some text := by
  unfold expect
  rw [skipBlanks_cons h]
  exact if_pos rfl

theorem expect_of_ne {c d : Char} (h : isBlank d = false) (hne : d ≠ c) (text : List Char)
    : expect c (d :: text) = none := by
  unfold expect
  rw [skipBlanks_cons h]
  exact if_neg hne

def isWord (start more : Char → Bool) (w : String) : Bool :=
  match w.toList with
  | [] => false
  | c :: text => start c && text.all more

theorem isBlank_of_isLabelStart {c : Char} (h : isLabelStart c = true) : isBlank c = false := by
  rw [Bool.eq_false_iff]
  intro hblank
  simp only [isBlank, Bool.or_eq_true, beq_iff_eq] at hblank
  rcases hblank with rfl | rfl <;> cases h

theorem isBlank_of_isNameStart {c : Char} (h : isNameStart c = true) : isBlank c = false := by
  rw [Bool.eq_false_iff]
  intro hblank
  simp only [isBlank, Bool.or_eq_true, beq_iff_eq] at hblank
  rcases hblank with rfl | rfl <;> cases h

theorem word_append {start more : Char → Bool} (hstart : ∀ c, start c = true → isBlank c = false) {w : String}
    (h : isWord start more w = true) {c : Char} (hc : more c = false) (text : List Char)
    : word start more (w.toList ++ c :: text) = some (w, c :: text) := by
  unfold isWord at h
  split at h
  . cases h
  . next d ds hw =>
    rw [Bool.and_eq_true, List.all_eq_true] at h
    unfold word
    rw [hw, List.cons_append, skipBlanks_cons (hstart d h.1)]
    dsimp only
    rw [if_pos h.1, List.takeWhile_append_of_pos h.2, List.dropWhile_append_of_pos h.2,
      List.takeWhile_cons_of_neg (by simp [hc]), List.dropWhile_cons_of_neg (by simp [hc]), List.append_nil, ← hw,
      String.ofList_toList]

def labelText (l : String × String) : List Char := l.1.toList ++ '=' :: '"' :: escape l.2.toList ++ ['"']

def labelsText (ls : List (String × String)) : List Char :=
  match ls with
  | [] => []
  | [l] => labelText l
  | l :: ls => labelText l ++ ',' :: labelsText ls

def IsLabels (ls : List (String × String)) : Prop := ∀ l ∈ ls, isWord isLabelStart isLabelChar l.1 = true

theorem labels_label {l : String × String} (h : isWord isLabelStart isLabelChar l.1 = true) (fuel : Nat)
    (text : List Char)
    : labels (fuel + 1) (labelText l ++ text)
        =
      match expect ',' text with
      | some text => (labels fuel text).map fun r => (l :: r.1, r.2)
      | none => (expect '}' text).map fun text => ([l], text) := by
  have hword := word_append (fun c => isBlank_of_isLabelStart) h (c := '=') (by decide)
    ('"' :: (escape l.2.toList ++ '"' :: text))
  have hsplit : labelText l ++ text = l.1.toList ++ '=' :: '"' :: (escape l.2.toList ++ '"' :: text) := by
    simp [labelText]
  have hbrace : expect '}' (l.1.toList ++ '=' :: '"' :: (escape l.2.toList ++ '"' :: text)) = none := by
    unfold isWord at h
    split at h
    . cases h
    . next d ds hw =>
      rw [Bool.and_eq_true] at h
      rw [hw, List.cons_append]
      apply expect_of_ne (isBlank_of_isLabelStart h.1)
      rintro rfl
      cases h.1
  rw [hsplit, labels, hbrace]
  dsimp only
  rw [hword, Option.bind_some]
  dsimp only
  rw [expect_cons (by decide), Option.bind_some, expect_cons (by decide), Option.bind_some, labelValue_escape,
    Option.bind_some, String.ofList_toList]

theorem labels_labelsText {ls : List (String × String)} (h : IsLabels ls) {fuel : Nat} (hfuel : ls.length < fuel)
    (text : List Char)
    : labels fuel (labelsText ls ++ '}' :: text) = some (ls, text) := by
  induction ls generalizing fuel with
  | nil =>
    cases fuel with
    | zero => cases hfuel
    | succ fuel =>
      rw [labelsText, List.nil_append, labels, expect_cons (by decide)]
  | cons l ls ih =>
    cases fuel with
    | zero => cases hfuel
    | succ fuel =>
      have hl := h l (by simp)
      have hrest := ih (fun l' hl' => h l' (by simp [hl'])) (Nat.lt_of_succ_lt_succ hfuel)
      cases ls with
      | nil =>
        rw [labelsText, labels_label hl, expect_of_ne (by decide) (by decide), expect_cons (by decide)]
        rfl
      | cons l' ls =>
        rw [labelsText, List.append_assoc, labels_label hl, List.cons_append, expect_cons (by decide)]
        . dsimp only
          rw [hrest]
          rfl
        . simp

theorem length_le_labelsText (ls : List (String × String)) : ls.length ≤ (labelsText ls).length := by
  induction ls with
  | nil => exact Nat.le_refl _
  | cons l ls ih =>
    cases ls with
    | nil =>
      rw [labelsText, labelText]
      simp only [List.length_append, List.length_cons]
      omega
    | cons l' ls =>
      rw [labelsText]
      . simp only [List.length_append, List.length_cons] at ih ⊢
        omega
      . simp

def isToken (value : String) : Bool :=
  !value.toList.isEmpty && value.toList.all fun c => !isBlank c && c != '\n' && c != '{'

inductive Line where
  | comment (text : List Char)
  | sample (name : String) (labels : List (String × String)) (value : String)

namespace Line

def text (l : Line) : List Char :=
  match l with
  | .comment text => text
  | .sample name ls value =>
    name.toList ++ (if ls = [] then [] else '{' :: labelsText ls ++ ['}']) ++ ' ' :: value.toList

def sample? (l : Line) : Option Sample :=
  match l with
  | .comment _ => none
  | .sample name ls value => some { name := name, labels := ls, value := readValue value }

def Valid (l : Line) : Prop :=
  match l with
  | .comment text => text.head? = some '#' ∧ '\n' ∉ text
  | .sample name ls value =>
    isWord isNameStart isNameChar name = true ∧ IsLabels ls ∧ isToken value = true

end Line

theorem skipBlanks_token {value : String} (h : isToken value = true)
    : skipBlanks value.toList = value.toList ∧ expect '{' (' ' :: value.toList) = none := by
  unfold isToken at h
  rw [Bool.and_eq_true, List.all_eq_true] at h
  cases hvalue : value.toList with
  | nil =>
    rw [hvalue] at h
    cases h.1
  | cons c text =>
    have hc := h.2 c (by simp [hvalue])
    simp only [Bool.and_eq_true, Bool.not_eq_true', bne_iff_ne] at hc
    have hskip := skipBlanks_cons hc.1.1 text
    refine ⟨hskip, ?_⟩
    unfold expect
    change (match skipBlanks (c :: text) with
      | [] => none
      | d :: text => if d = '{' then some text else none) = none
    rw [hskip]
    exact if_neg hc.2

theorem takeWhile_token {value : String} (h : isToken value = true)
    : (value.toList.takeWhile fun c => !isBlank c) = value.toList
        ∧ (value.toList.dropWhile fun c => !isBlank c) = [] := by
  unfold isToken at h
  rw [Bool.and_eq_true, List.all_eq_true] at h
  have hall : ∀ c ∈ value.toList, (!isBlank c) = true := by
    intro c hc
    have := h.2 c hc
    simp only [Bool.and_eq_true] at this
    exact this.1.1
  exact ⟨List.takeWhile_eq_self_iff.mpr hall, List.dropWhile_eq_nil_iff.mpr hall⟩

theorem sampleOf_text {name : String} {ls : List (String × String)} {value : String}
    (h : (Line.sample name ls value).Valid)
    : sampleOf (Line.sample name ls value).text = (Line.sample name ls value).sample? := by
  rcases h with ⟨hname, hls, hvalue⟩
  have hskip := skipBlanks_token hvalue
  have htake := takeWhile_token hvalue
  have hempty : value.toList.isEmpty = false := by
    unfold isToken at hvalue
    rw [Bool.and_eq_true, Bool.not_eq_true'] at hvalue
    exact hvalue.1
  have hblank : skipBlanks (' ' :: value.toList) = value.toList := hskip.1
  unfold Line.text Line.sample? sampleOf
  dsimp only
  split
  . next hnil =>
    subst hnil
    rw [List.append_nil, word_append (fun c => isBlank_of_isNameStart) hname (by decide), Option.bind_some]
    dsimp only
    rw [hskip.2]
    dsimp only
    rw [Option.bind_some, hblank, htake.1, htake.2, hempty, String.ofList_toList]
    rfl
  . have hsplit : name.toList ++ ('{' :: labelsText ls ++ ['}']) ++ ' ' :: value.toList
        = name.toList ++ '{' :: (labelsText ls ++ '}' :: ' ' :: value.toList) := by
      simp
    have hfuel : ls.length < (labelsText ls ++ '}' :: ' ' :: value.toList).length + 1 := by
      have := length_le_labelsText ls
      rw [List.length_append]
      omega
    rw [hsplit, word_append (fun c => isBlank_of_isNameStart) hname (by decide), Option.bind_some]
    dsimp only
    rw [expect_cons (by decide)]
    dsimp only
    rw [labels_labelsText hls hfuel, Option.bind_some, hblank, htake.1, htake.2, hempty, String.ofList_toList]
    rfl

theorem head_of_isWord {start more : Char → Bool} {w : String} (h : isWord start more w = true)
    : ∃ c text, w.toList = c :: text ∧ start c = true := by
  unfold isWord at h
  split at h
  . cases h
  . next c text hw =>
    rw [Bool.and_eq_true] at h
    exact ⟨c, text, hw, h.1⟩

theorem readLine_text {l : Line} (h : l.Valid) : readLine l.text = some l.sample? := by
  cases l with
  | comment text =>
    cases text with
    | nil => cases h.1
    | cons c text =>
      cases h.1
      rfl
  | sample name ls value =>
    have hsample := sampleOf_text h
    rcases head_of_isWord h.1 with ⟨c, text, hc, hstart⟩
    have hhash : c ≠ '#' := by
      rintro rfl
      cases hstart
    unfold readLine
    have hskip : ∃ rest, skipBlanks (Line.sample name ls value).text = c :: rest := by
      unfold Line.text
      dsimp only
      rw [hc, List.cons_append, List.cons_append]
      exact ⟨_, skipBlanks_cons (isBlank_of_isNameStart hstart) _⟩
    rcases hskip with ⟨rest, hskip⟩
    rw [hskip]
    dsimp only
    rw [if_neg hhash, hsample]
    rfl

theorem newline_notMem_word {start more : Char → Bool} (hstart : start '\n' = false) (hmore : more '\n' = false)
    {w : String} (h : isWord start more w = true)
    : '\n' ∉ w.toList := by
  unfold isWord at h
  split at h
  . cases h
  . next c text hw =>
    rw [Bool.and_eq_true, List.all_eq_true] at h
    rw [hw, List.mem_cons, not_or]
    constructor
    . rintro rfl
      rw [h.1] at hstart
      cases hstart
    . intro hmem
      rw [h.2 _ hmem] at hmore
      cases hmore

theorem newline_notMem_labelsText {ls : List (String × String)} (h : IsLabels ls) : '\n' ∉ labelsText ls := by
  have hlabel : ∀ l ∈ ls, '\n' ∉ labelText l := by
    intro l hl
    have hname := newline_notMem_word (by decide) (by decide) (h l hl)
    have hvalue := newline_notMem_escape l.2.toList
    simp [labelText, hname, hvalue]
  clear h
  induction ls with
  | nil => simp [labelsText]
  | cons l ls ih =>
    have hrest := ih fun l' hl' => hlabel l' (by simp [hl'])
    cases ls with
    | nil => exact hlabel l (by simp)
    | cons l' ls =>
      rw [labelsText]
      . rw [List.mem_append, List.mem_cons]
        rintro (hmem | heq | hmem)
        . exact hlabel l (by simp) hmem
        . cases heq
        . exact hrest hmem
      . simp

theorem newline_notMem_text {l : Line} (h : l.Valid) : '\n' ∉ l.text := by
  cases l with
  | comment text => exact h.2
  | sample name ls value =>
    rcases h with ⟨hname, hls, hvalue⟩
    have hname := newline_notMem_word (by decide) (by decide) hname
    have hls := newline_notMem_labelsText hls
    have hvalue : '\n' ∉ value.toList := by
      unfold isToken at hvalue
      rw [Bool.and_eq_true, List.all_eq_true] at hvalue
      intro hmem
      have hfalse := hvalue.2 _ hmem
      simp at hfalse
    unfold Line.text
    dsimp only
    split
    . simp [hname, hvalue]
    . simp [hname, hvalue, hls]

theorem cut_line {line : List Char} (h : '\n' ∉ line) (rest : List Char)
    : Lines.cut '\n' [] (line ++ '\n' :: rest)
        =
      (line :: (Lines.cut '\n' [] rest).1, (Lines.cut '\n' [] rest).2) := by
  rw [Lines.cut_of_pending h, Lines.cut, if_pos rfl]

theorem cut_lines {ls : List Line} (h : ∀ l ∈ ls, l.Valid)
    : Lines.cut '\n' [] (ls.flatMap fun l => l.text ++ ['\n']) = (ls.map Line.text, []) := by
  induction ls with
  | nil => rfl
  | cons l ls ih =>
    rw [List.flatMap_cons, List.append_assoc, List.singleton_append, cut_line (newline_notMem_text (h l (by simp))),
      ih fun l' hl' => h l' (by simp [hl'])]
    rfl

theorem parse_lines {ls : List Line} (h : ∀ l ∈ ls, l.Valid)
    : parse (ls.flatMap fun l => l.text ++ ['\n']) = some (ls.filterMap Line.sample?) := by
  have hread : readLines (ls.map Line.text) = some (ls.filterMap Line.sample?) := by
    induction ls with
    | nil => rfl
    | cons l ls ih =>
      rw [List.map_cons, readLines, readLine_text (h l (by simp)), Option.bind_some,
        ih fun l' hl' => h l' (by simp [hl'])]
      cases hsample : l.sample? with
      | none =>
        rw [List.filterMap_cons_none hsample]
        rfl
      | some sample =>
        rw [List.filterMap_cons_some hsample]
        rfl
  unfold parse
  rw [cut_lines h, hread]
  rfl

/-!
Texts that are written line by line, with the samples they carry in any order.
-/

structure Writes (text : List Char) (samples : List Sample) : Prop where
  lines : ∃ ls : List Line, (∀ l ∈ ls, l.Valid) ∧ text = ls.flatMap (fun l => l.text ++ ['\n'])
    ∧ (ls.filterMap Line.sample?).Perm samples

namespace Writes

theorem parse {text : List Char} {samples : List Sample} (h : Writes text samples)
    : ∃ parsed, parse text = some parsed ∧ parsed.Perm samples := by
  rcases h.lines with ⟨ls, hvalid, rfl, hperm⟩
  exact ⟨_, parse_lines hvalid, hperm⟩

theorem nil : Writes [] [] := by
  exact ⟨[], by simp, rfl, .refl _⟩

theorem perm {text : List Char} {xs ys : List Sample} (h : Writes text xs) (hperm : xs.Perm ys)
    : Writes text ys := by
  rcases h.lines with ⟨ls, hvalid, htext, hls⟩
  exact ⟨ls, hvalid, htext, hls.trans hperm⟩

theorem append {s t : List Char} {xs ys : List Sample} (hs : Writes s xs) (ht : Writes t ys)
    : Writes (s ++ t) (xs ++ ys) := by
  rcases hs.lines with ⟨ls, hls, rfl, hxs⟩
  rcases ht.lines with ⟨ms, hms, rfl, hys⟩
  refine ⟨ls ++ ms, ?_, by rw [List.flatMap_append], ?_⟩
  . intro l hl
    rcases List.mem_append.mp hl with hl | hl
    . exact hls l hl
    . exact hms l hl
  . rw [List.filterMap_append]
    exact hxs.append hys

theorem flatMap {α : Type} {l : List α} {f : α → List Char} {g : α → List Sample}
    (h : ∀ a ∈ l, Writes (f a) (g a))
    : Writes (l.flatMap f) (l.flatMap g) := by
  induction l with
  | nil => exact nil
  | cons a l ih => exact (h a (by simp)).append (ih fun b hb => h b (by simp [hb]))

theorem comment {text : List Char} (hhead : text.head? = some '#') (h : '\n' ∉ text)
    : Writes (text ++ ['\n']) [] := by
  refine ⟨[.comment text], ?_, by simp [Line.text], .refl _⟩
  intro l hl
  cases List.mem_singleton.mp hl
  exact ⟨hhead, h⟩

theorem sample {name : String} {labels : List (String × String)} {value : String}
    (h : (Line.sample name labels value).Valid)
    : Writes ((Line.sample name labels value).text ++ ['\n'])
        [{ name := name, labels := labels, value := readValue value }] := by
  refine ⟨[.sample name labels value], ?_, by simp, .refl _⟩
  intro l hl
  cases List.mem_singleton.mp hl
  exact h

end Writes

def Exposes (text : List Char) (samples : List Sample) : Prop :=
  ∃ parsed, parse text = some parsed ∧ parsed.Perm samples ∧ Distinct parsed

theorem Writes.exposes_iff {text : List Char} {written samples : List Sample} (h : Writes text written)
    : Exposes text samples ↔ written.Perm samples ∧ Distinct written := by
  rcases h.parse with ⟨parsed, hparsed, hwritten⟩
  constructor
  . rintro ⟨parsed', hparsed', hsamples, hdistinct⟩
    rw [hparsed] at hparsed'
    cases hparsed'
    exact ⟨hwritten.symm.trans hsamples, hdistinct.perm hwritten⟩
  . rintro ⟨hsamples, hdistinct⟩
    exact ⟨parsed, hparsed, hwritten.trans hsamples, hdistinct.perm hwritten.symm⟩

theorem digits_toString (n : Nat)
    : (toString n).toList.isEmpty = false ∧ ∀ c ∈ (toString n).toList, c.isDigit = true := by
  have hlist : (toString n).toList = Nat.toDigits 10 n := by simp [toString, Nat.repr]
  rw [hlist, List.isEmpty_eq_false_iff]
  refine ⟨Nat.toDigits_ne_nil, ?_⟩
  intro c hc
  exact Nat.isDigit_of_mem_toDigits (by decide) (by decide) hc

theorem readValue_toString (n : Nat) : readValue (toString n) = .integer n := by
  rcases digits_toString n with ⟨hempty, hdigits⟩
  unfold readValue
  rw [hempty, List.all_eq_true.mpr hdigits]
  simp [toString, Nat.repr]

theorem isToken_toString (n : Nat) : isToken (toString n) = true := by
  rcases digits_toString n with ⟨hempty, hdigits⟩
  unfold isToken
  rw [hempty, Bool.not_false, Bool.true_and, List.all_eq_true]
  intro c hc
  have hdigit := hdigits c hc
  simp only [Bool.and_eq_true, Bool.not_eq_true', bne_iff_ne, isBlank, Bool.or_eq_false_iff, beq_eq_false_iff_ne]
  refine ⟨⟨⟨?_, ?_⟩, ?_⟩, ?_⟩ <;> rintro rfl <;> cases hdigit

end Exposition
