import Mathlib.Algebra.Group.Nat.Defs
import Mathlib.Data.List.TakeWhile
import Mathlib.Data.Nat.Find
import Mathlib.Tactic.ByContra
import OpenRusty.Lib.Json

/-!
This module contains how the scheduler plugin finds a string field in the JSON body of a request
(`choice.rs`). It looks for the quoted field name in the text and does not parse it.
-/

namespace OpenRusty
namespace Scheduler

open Json

def skipWs (body : Text) : Text := body.dropWhile Json.isBlank

def parseHex4 (hex : Text) : Option Nat :=
  if hex.length ≠ 4 then
    none
  else
    hex.foldlM (fun v b => do return (v <<< 4) ||| (← hexDigit b)) 0

def decodeString (out : Text) (body : Text) : Option Text :=
  match body with
  | [] => none
  | b :: rest =>
    if b = quote then
      some out
    else if b = backslash then
      match rest with
      | [] => none
      | e :: rest =>
        if e = 0x75 then
          match rest with
          | h₁ :: h₂ :: h₃ :: h₄ :: rest =>
            match parseHex4 [h₁, h₂, h₃, h₄] with
            | none => none
            | some cp =>
              if 0xd800 ≤ cp ∧ cp ≤ 0xdfff then
                none
              else
                decodeString (out ++ String.utf8EncodeChar (Char.ofNat cp)) rest
          | _ => none
        else
          match unescape e with
          | none => none
          | some c => decodeString (out ++ [c]) rest
    else
      decodeString (out ++ [b]) rest

def stringValueAfter (rest : Text) : Option Text :=
  match skipWs rest with
  | [] => none
  | b :: rest =>
    if b ≠ colon then
      none
    else
      match skipWs rest with
      | [] => none
      | b :: rest => if b ≠ quote then none else decodeString [] rest

def findSubslice (hay needle : Text) : Option Nat :=
  if needle = [] ∨ hay.length < needle.length then
    none
  else
    (List.range (hay.length + 1 - needle.length)).find? fun i => (hay.drop i).take needle.length == needle

theorem isPrefix_of_findSubslice {hay needle : Text} {i : Nat} (h : findSubslice hay needle = some i)
    : needle <+: hay.drop i ∧ ∀ j < i, ¬ needle <+: hay.drop j := by
  unfold findSubslice at h
  split at h
  . cases h
  . rcases List.find?_range_eq_some.mp h with ⟨hi, -, hj⟩
    refine ⟨?_, ?_⟩
    . rw [List.prefix_iff_eq_take]
      exact (eq_of_beq hi).symm
    . intro j hlt hprefix
      have hne := hj j hlt
      rw [List.prefix_iff_eq_take] at hprefix
      rw [← hprefix] at hne
      simp at hne

theorem not_isPrefix_of_findSubslice {hay needle : Text} (hneedle : needle ≠ []) (h : findSubslice hay needle = none)
    (j : Nat)
    : ¬ needle <+: hay.drop j := by
  intro hprefix
  have hlength := hprefix.length_le
  have hpos := List.length_pos_iff.mpr hneedle
  rw [List.length_drop] at hlength
  unfold findSubslice at h
  rw [if_neg (by simp only [hneedle, false_or]; omega)] at h
  have hne := List.find?_range_eq_none.mp h j (by omega)
  rw [List.prefix_iff_eq_take] at hprefix
  rw [← hprefix] at hne
  simp at hne

theorem length_pos_of_findSubslice {hay needle : Text} {i : Nat} (h : findSubslice hay needle = some i)
    : 0 < hay.length := by
  unfold findSubslice at h
  split at h
  . cases h
  . rename_i hguard
    rw [not_or] at hguard
    have hpos := List.length_pos_iff.mpr hguard.1
    omega

def scan (needle body : Text) : Option Text :=
  match _h : findSubslice body needle with
  | none => none
  | some rel =>
    match stringValueAfter (body.drop (rel + needle.length)) with
    | some val => some val
    | none => scan needle (body.drop (rel + 1))
termination_by body.length
decreasing_by
  have hpos := length_pos_of_findSubslice _h
  rw [List.length_drop]
  omega

def jsonStringField (body field : Text) : Option Text :=
  if field = [] then
    none
  else
    scan (quoted field) body

/-!
What the scan can decode: it takes control bytes that JSON does not, and no surrogates.
-/

inductive Reads : Text → Text → Prop where
  | nil : Reads [] []
  | plain {b : UInt8} {lit v : Text} (hquote : b ≠ quote) (hbackslash : b ≠ backslash) (h : Reads lit v)
    : Reads (b :: lit) (b :: v)
  | escape {b e : UInt8} {lit v : Text} (hescape : unescape b = some e) (h : Reads lit v)
    : Reads (backslash :: b :: lit) (e :: v)
  | unicode {a b c d : UInt8} {unit : Nat} {lit v : Text} (hhex : hex4 a b c d = some unit)
      (hunit : ¬ (0xd800 ≤ unit ∧ unit ≤ 0xdfff)) (h : Reads lit v)
    : Reads (escapeU a b c d ++ lit) (String.utf8EncodeChar (Char.ofNat unit) ++ v)

theorem lt_of_hexDigit {b : UInt8} {d : Nat} (h : hexDigit b = some d) : d < 2 ^ 4 := by
  unfold hexDigit at h
  simp only [UInt8.le_iff_toNat_le] at h
  split at h
  . rename_i hdigit
    have hle : b.toNat ≤ 0x39 := hdigit.2
    cases h
    omega
  . split at h
    . rename_i hdigit
      have hle : b.toNat ≤ 0x66 := hdigit.2
      cases h
      omega
    . split at h
      . rename_i hdigit
        have hle : b.toNat ≤ 0x46 := hdigit.2
        cases h
        omega
      . cases h

theorem shiftLeft_or (v : Nat) {d : Nat} (h : d < 2 ^ 4) : (v <<< 4) ||| d = v * 16 + d := by
  rw [← Nat.shiftLeft_add_eq_or_of_lt h, Nat.shiftLeft_eq]

theorem parseHex4_eq (a b c d : UInt8) : parseHex4 [a, b, c, d] = hex4 a b c d := by
  unfold parseHex4 hex4
  rw [if_neg (by simp)]
  cases ha : hexDigit a with
  | none => simp [ha]
  | some a' =>
    cases hb : hexDigit b with
    | none => simp [ha, hb]
    | some b' =>
      cases hc : hexDigit c with
      | none => simp [ha, hb, hc]
      | some c' =>
        cases hd : hexDigit d with
        | none => simp [ha, hb, hc, hd]
        | some d' =>
          simp [ha, hb, hc, hd, shiftLeft_or _ (lt_of_hexDigit hb), shiftLeft_or _ (lt_of_hexDigit hc),
            shiftLeft_or _ (lt_of_hexDigit hd)]

theorem decodeString_of_reads {lit v : Text} (h : Reads lit v) (out behind : Text)
    : decodeString out (lit ++ quote :: behind) = some (out ++ v) := by
  induction h generalizing out with
  | nil =>
    rw [List.nil_append, decodeString.eq_def, List.append_nil]
    exact if_pos rfl
  | plain hquote hbackslash _ ih =>
    rw [List.cons_append, decodeString.eq_def]
    simp only [if_neg hquote, if_neg hbackslash]
    rw [ih, List.append_assoc]
    rfl
  | @escape b e lit v hescape _ ih =>
    have hne : b ≠ 0x75 := by
      rintro rfl
      cases hescape
    have hquote : backslash ≠ quote := by decide
    rw [List.cons_append, List.cons_append, decodeString.eq_def]
    simp only [if_neg hquote, if_pos, if_neg hne, hescape]
    rw [ih, List.append_assoc]
    rfl
  | @unicode a b c d unit lit v hhex hunit _ ih =>
    have hsplit : escapeU a b c d ++ lit ++ quote :: behind
        = backslash :: 0x75 :: a :: b :: c :: d :: (lit ++ quote :: behind) := by
      rfl
    have hquote : backslash ≠ quote := by decide
    rw [hsplit, decodeString.eq_def]
    simp only [if_neg hquote, if_pos, parseHex4_eq, hhex, if_neg hunit]
    rw [ih, List.append_assoc]

theorem reads_of_decodeString {out body v : Text} (h : decodeString out body = some v)
    : ∃ lit w behind, body = lit ++ quote :: behind ∧ Reads lit w ∧ v = out ++ w := by
  fun_induction decodeString out body with
  | case1 => cases h
  | case2 out rest =>
    cases h
    exact ⟨[], [], rest, rfl, .nil, (List.append_nil _).symm⟩
  | case3 => cases h
  | case4 => cases h
  | case5 => cases h
  | case6 out a b c d rest unit hhex hunit _ ih =>
    rcases ih h with ⟨lit, w, behind, rfl, hreads, rfl⟩
    rw [parseHex4_eq] at hhex
    exact ⟨_, _, behind, rfl, .unicode hhex hunit hreads, by rw [List.append_assoc]⟩
  | case7 => cases h
  | case8 => cases h
  | case9 out e rest hne c hescape _ ih =>
    rcases ih h with ⟨lit, w, behind, rfl, hreads, rfl⟩
    exact ⟨_, _, behind, rfl, .escape hescape hreads, by simp⟩
  | case10 out b rest hquote hbackslash ih =>
    rcases ih h with ⟨lit, w, behind, rfl, hreads, rfl⟩
    exact ⟨_, _, behind, rfl, .plain hquote hbackslash hreads, by simp⟩

theorem skipWs_append {w rest : Text} {b : UInt8} (hw : Blank w) (hb : Json.isBlank b = false)
    : skipWs (w ++ b :: rest) = b :: rest := by
  unfold skipWs
  rw [List.dropWhile_append_of_pos hw, List.dropWhile_cons_of_neg (by simp [hb])]

theorem blank_of_skipWs {body rest : Text} {b : UInt8} (h : skipWs body = b :: rest)
    : ∃ w, Blank w ∧ body = w ++ b :: rest := by
  refine ⟨body.takeWhile Json.isBlank, ?_, ?_⟩
  . intro c hc
    exact List.mem_takeWhile_imp hc
  . rw [← h, skipWs, List.takeWhile_append_dropWhile]

theorem stringValueAfter_eq_some {rest v : Text}
    : stringValueAfter rest = some v
        ↔
      ∃ w w' lit behind, Blank w ∧ Blank w' ∧ rest = w ++ colon :: w' ++ quoted lit ++ behind ∧ Reads lit v := by
  constructor
  . intro h
    unfold stringValueAfter at h
    split at h
    . cases h
    . rename_i hcolon
      rcases blank_of_skipWs hcolon with ⟨w, hw, rfl⟩
      split at h
      . cases h
      . rename_i heq
        rw [not_not] at heq
        subst heq
        split at h
        . cases h
        . rename_i hquote
          rcases blank_of_skipWs hquote with ⟨w', hw', rfl⟩
          split at h
          . cases h
          . rename_i heq
            rw [not_not] at heq
            subst heq
            rcases reads_of_decodeString h with ⟨lit, v', behind, rfl, hreads, rfl⟩
            exact ⟨w, w', lit, behind, hw, hw', by simp [quoted], hreads⟩
  . rintro ⟨w, w', lit, behind, hw, hw', rfl, hreads⟩
    have hsplit : w ++ colon :: w' ++ quoted lit ++ behind
        = w ++ colon :: (w' ++ quote :: (lit ++ quote :: behind)) := by
      simp [quoted]
    unfold stringValueAfter
    rw [hsplit, skipWs_append hw (by decide)]
    simp only [not_true_eq_false, if_false, ne_eq]
    rw [skipWs_append hw' (by decide)]
    simp only [not_true_eq_false, if_false]
    exact decodeString_of_reads hreads [] behind

/-!
The scan returns the value at the first place of the needle that has one.
-/

def valueAt (needle body : Text) (n : Nat) : Option Text :=
  if needle <+: body.drop n then
    stringValueAfter (body.drop (n + needle.length))
  else
    none

theorem valueAt_drop (needle body : Text) (k n : Nat)
    : valueAt needle (body.drop k) n = valueAt needle body (k + n) := by
  unfold valueAt
  rw [List.drop_drop, List.drop_drop, Nat.add_assoc]

theorem quoted_ne_nil (field : Text) : quoted field ≠ [] := by
  exact List.cons_ne_nil _ _

theorem scan_eq_some {needle : Text} (hneedle : needle ≠ []) (body v : Text)
    : scan needle body = some v
        ↔
      ∃ n, valueAt needle body n = some v ∧ ∀ m < n, valueAt needle body m = none := by
  fun_induction scan needle body with
  | case1 body hfind =>
    constructor
    . intro h
      cases h
    . rintro ⟨n, hn, -⟩
      unfold valueAt at hn
      rw [if_neg (not_isPrefix_of_findSubslice hneedle hfind n)] at hn
      cases hn
  | case2 body rel hfind val hval =>
    rcases isPrefix_of_findSubslice hfind with ⟨hrel, hbefore⟩
    have hvalue : valueAt needle body rel = some val := by
      unfold valueAt
      rw [if_pos hrel, hval]
    constructor
    . intro h
      cases h
      exact ⟨rel, hvalue, fun m hm => if_neg (hbefore m hm)⟩
    . rintro ⟨n, hn, hfirst⟩
      rcases Nat.lt_trichotomy n rel with hlt | rfl | hlt
      . unfold valueAt at hn
        rw [if_neg (hbefore n hlt)] at hn
        cases hn
      . exact hvalue.symm.trans hn
      . rw [hfirst rel hlt] at hvalue
        cases hvalue
  | case3 body rel hfind hval ih =>
    rcases isPrefix_of_findSubslice hfind with ⟨hrel, hbefore⟩
    -- The key is found and its value cannot be read, and the search goes on behind its first character.
    have hnone : ∀ m < rel + 1, valueAt needle body m = none := by
      intro m hm
      unfold valueAt
      rcases Nat.lt_or_eq_of_le (Nat.le_of_lt_succ hm) with hlt | rfl
      . exact if_neg (hbefore m hlt)
      . rw [if_pos hrel, hval]
    rw [ih]
    constructor
    . rintro ⟨n, hn, hfirst⟩
      rw [valueAt_drop] at hn
      refine ⟨rel + 1 + n, hn, ?_⟩
      intro m hm
      by_cases hlt : m < rel + 1
      . exact hnone m hlt
      . have hm' := hfirst (m - (rel + 1)) (by omega)
        rwa [valueAt_drop, Nat.add_sub_cancel' (by omega)] at hm'
    . rintro ⟨n, hn, hfirst⟩
      have hle : rel + 1 ≤ n := by
        by_contra hlt
        rw [hnone n (by omega)] at hn
        cases hn
      refine ⟨n - (rel + 1), ?_, ?_⟩
      . rw [valueAt_drop, Nat.add_sub_cancel' hle, hn]
      . intro m hm
        rw [valueAt_drop]
        exact hfirst _ (by omega)

structure Spot (body field before lit : Text) : Prop where
  stands : ∃ w w' behind, Blank w ∧ Blank w'
    ∧ body = before ++ quoted field ++ w ++ colon :: w' ++ quoted lit ++ behind

theorem valueAt_eq_some {body field v : Text} {n : Nat}
    : valueAt (quoted field) body n = some v
        ↔
      ∃ before lit, before.length = n ∧ Spot body field before lit ∧ Reads lit v := by
  constructor
  . intro h
    unfold valueAt at h
    split at h
    . rename_i hprefix
      rcases hprefix with ⟨rest, hrest⟩
      rw [← List.drop_drop, ← hrest, List.drop_left] at h
      rcases stringValueAfter_eq_some.mp h with ⟨w, w', lit, behind, hw, hw', rfl, hreads⟩
      refine ⟨body.take n, lit, ?_, ⟨w, w', behind, hw, hw', ?_⟩, hreads⟩
      . have hlength := congrArg List.length hrest
        simp only [quoted, List.length_append, List.length_cons, List.length_drop] at hlength
        rw [List.length_take]
        omega
      . have hbody := List.take_append_drop n body
        rw [← hrest] at hbody
        simpa using hbody.symm
    . cases h
  . rintro ⟨before, lit, rfl, ⟨w, w', behind, hw, hw', rfl⟩, hreads⟩
    have hsplit : before ++ quoted field ++ w ++ colon :: w' ++ quoted lit ++ behind
        = before ++ (quoted field ++ (w ++ colon :: w' ++ quoted lit ++ behind)) := by
      simp
    unfold valueAt
    rw [hsplit, ← List.drop_drop, List.drop_left, List.drop_left, if_pos (List.prefix_append _ _)]
    exact stringValueAfter_eq_some.mpr ⟨w, w', lit, behind, hw, hw', rfl, hreads⟩

structure FirstRead (body field before v : Text) : Prop where
  nonempty : field ≠ []
  spot : ∃ lit, Spot body field before lit ∧ Reads lit v
  first : ∀ before' lit v', Spot body field before' lit → Reads lit v' → before.length ≤ before'.length

theorem jsonStringField_eq_some {body field v : Text}
    : jsonStringField body field = some v ↔ ∃ before, FirstRead body field before v := by
  unfold jsonStringField
  by_cases hfield : field = []
  . rw [if_pos hfield]
    constructor
    . intro h
      cases h
    . rintro ⟨before, hfirst⟩
      exact absurd hfield hfirst.nonempty
  . rw [if_neg hfield, scan_eq_some (quoted_ne_nil field)]
    constructor
    . rintro ⟨n, hn, hbefore⟩
      rcases valueAt_eq_some.mp hn with ⟨before, lit, rfl, hspot, hreads⟩
      refine ⟨before, hfield, ⟨lit, hspot, hreads⟩, ?_⟩
      intro before' lit' v' hspot' hreads'
      by_contra hlt
      have hnone := hbefore before'.length (by omega)
      rw [valueAt_eq_some.mpr ⟨before', lit', rfl, hspot', hreads'⟩] at hnone
      cases hnone
    . rintro ⟨before, -, ⟨lit, hspot, hreads⟩, hfirst⟩
      refine ⟨before.length, valueAt_eq_some.mpr ⟨before, lit, rfl, hspot, hreads⟩, ?_⟩
      intro m hm
      rw [Option.eq_none_iff_forall_ne_some]
      intro v' hv'
      rcases valueAt_eq_some.mp hv' with ⟨before', lit', rfl, hspot', hreads'⟩
      have hle := hfirst before' lit' v' hspot' hreads'
      omega

/-!
Where the spot is outside of the strings of a document it is a member's; within a string it is not.
-/

def Plain (field : Text) : Prop := ∀ b ∈ field, b ≠ quote ∧ b ≠ backslash

theorem spells_of_plain {raw : Text} (h : IsString raw) (hplain : Plain raw) : Spells raw raw := by
  induction h with
  | nil => exact .nil
  | plain hquote hbackslash hcontrol _ ih =>
    exact .plain hquote hbackslash hcontrol (ih fun b hb => hplain b (List.mem_cons_of_mem _ hb))
  | escape _ _ _ => exact absurd rfl (hplain _ List.mem_cons_self).2
  | unicode _ _ _ => exact absurd rfl (hplain _ List.mem_cons_self).2

theorem closed_of_reads {lit v : Text} (h : Reads lit v) : Closed lit := by
  induction h with
  | nil => exact .nil
  | plain hquote hbackslash _ ih => exact .plain hquote hbackslash ih
  | escape _ _ ih => exact .escape ih
  | unicode hhex _ _ ih => exact ih.escapeU (by simp [hhex])

theorem spells_of_reads {lit v : Text} (h : Reads lit v) (hlit : IsString lit) : Spells lit v := by
  induction h with
  | nil => exact .nil
  | plain hquote hbackslash _ ih =>
    cases hlit with
    | plain _ _ hcontrol hlit => exact .plain hquote hbackslash hcontrol (ih hlit)
    | escape _ _ => exact absurd rfl hbackslash
    | unicode _ _ => exact absurd rfl hbackslash
  | escape hescape _ ih =>
    cases hlit with
    | plain _ hbackslash _ _ => exact absurd rfl hbackslash
    | escape _ hlit => exact .escape hescape (ih hlit)
    | unicode _ _ => cases hescape
  | unicode hhex hunit _ ih =>
    cases hlit with
    | plain _ hbackslash _ _ => exact absurd rfl hbackslash
    | escape hescape _ => cases hescape
    | unicode _ hlit =>
      refine .unicode hhex ?_ ?_ (ih hlit)
      . simp only [isHigh, decide_eq_false_iff_not]
        omega
      . simp only [isLow, decide_eq_false_iff_not]
        omega

theorem hasMember_of_spot {body field before lit v : Text} {ms : List Member} (h : Document body ms)
    (hspot : Spot body field before lit) (hreads : Reads lit v)
    (houtside : Place.outside.after before = .outside) (hplain : Plain field)
    : HasMember ms field v := by
  rcases hspot with ⟨w, w', behind, hw, hw', heq⟩
  rcases mem_of_document h heq houtside (.of_free hplain) hw hw' (closed_of_reads hreads) with
    ⟨hmem, hname, hlit⟩
  exact ⟨_, hmem, lit, rfl, spells_of_plain hname hplain, spells_of_reads hreads hlit⟩

def FirstSpot (body field before : Text) : Prop := ∃ v, FirstRead body field before v

def Single (lit : Text) : Prop :=
  ∀ before a b c d behind unit, lit = before ++ escapeU a b c d ++ behind → hex4 a b c d = some unit →
    ¬(0xd800 ≤ unit ∧ unit ≤ 0xdfff)

theorem Single.tail (xs : Text) {lit : Text} (h : Single (xs ++ lit)) : Single lit := by
  rintro before a b c d behind unit rfl
  exact h (xs ++ before) a b c d behind unit (by simp)

theorem reads_of_spells {lit v : Text} (h : Spells lit v) (hsingle : Single lit) : Reads lit v := by
  induction h with
  | nil => exact .nil
  | @plain b _ _ hquote hbackslash _ _ ih => exact .plain hquote hbackslash (ih (hsingle.tail [b]))
  | @escape b _ _ _ hescape _ ih => exact .escape hescape (ih (hsingle.tail [backslash, b]))
  | @unicode a b c d unit raw _ hhex _ _ _ ih =>
    exact .unicode hhex (hsingle [] a b c d raw unit rfl hhex) (ih (hsingle.tail _))
  | @pair a b c d a' b' c' d' high _ raw _ hhex _ hhigh _ _ _ =>
    have hnot := hsingle [] a b c d (escapeU a' b' c' d' ++ raw) high (by simp) hhex
    simp only [isHigh, decide_eq_true_eq] at hhigh
    omega

/--
The body is a document with a member of that name, all such members are the same string, and nowhere in a string of
the document does the quoted name stand.
-/
structure Tells (body field v : Text) : Prop where
  nonempty : field ≠ []
  plain : Plain field
  outside : ∀ before behind, body = before ++ quoted field ++ behind → Place.outside.after before = .outside
  document : ∃ ms lit, Document body ms ∧ (field, quoted lit) ∈ ms ∧ Spells lit v ∧ Single lit
    ∧ ∀ w, HasMember ms field w → w = v

theorem exists_firstSpot {body field before lit v : Text} (hne : field ≠ []) (hspot : Spot body field before lit)
    (hreads : Reads lit v)
    : ∃ w, jsonStringField body field = some w := by
  have hsome : ∃ n w, valueAt (quoted field) body n = some w :=
    ⟨before.length, v, valueAt_eq_some.mpr ⟨before, lit, rfl, hspot, hreads⟩⟩
  classical
  obtain ⟨w, hw⟩ := Nat.find_spec hsome
  refine ⟨w, ?_⟩
  unfold jsonStringField
  rw [if_neg hne, scan_eq_some (quoted_ne_nil field)]
  refine ⟨Nat.find hsome, hw, ?_⟩
  intro m hm
  rw [Option.eq_none_iff_forall_ne_some]
  intro w' hw'
  exact Nat.find_min hsome hm ⟨w', hw'⟩

def cacheSalt : Text := [0x63, 0x61, 0x63, 0x68, 0x65, 0x5f, 0x73, 0x61, 0x6c, 0x74]

def evil : Text := [0x65, 0x76, 0x69, 0x6c]

theorem isString_of_printable {raw : Text} (h : raw.all (fun b => b ≠ quote ∧ b ≠ backslash ∧ 0x20 ≤ b) = true)
    : IsString raw := by
  induction raw with
  | nil => exact .nil
  | cons b raw ih =>
    rw [List.all_cons, Bool.and_eq_true, decide_eq_true_eq] at h
    rcases h with ⟨⟨hquote, hbackslash, hcontrol⟩, hraw⟩
    exact .plain hquote hbackslash hcontrol (ih hraw)

def saltedBody : Text := 0x7b :: ([] ++ quoted cacheSalt ++ [] ++ colon :: [] ++ quoted evil ++ []) ++ [0x7d]

theorem document_member {name value : Text} (hname : IsString name) (hvalue : IsString value)
    : Document (0x7b :: ([] ++ quoted name ++ [] ++ colon :: [] ++ quoted value ++ []) ++ [0x7d])
        [(name, quoted value)] := by
  have hblank : Blank [] := nofun
  exact ⟨[], _, [], hblank, .object (.member hblank hname hblank hblank (.string hvalue) hblank), hblank, by simp⟩

def craftedBody : Text :=
  0x7b :: ([] ++ quoted (backslash :: quote :: cacheSalt) ++ [] ++ colon :: [] ++ quoted evil ++ []) ++ [0x7d]

def craftedMembers : List Member := [(backslash :: quote :: cacheSalt, quoted evil)]

end Scheduler
end OpenRusty
