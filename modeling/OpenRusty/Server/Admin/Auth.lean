import OpenRusty.Core.Validate
import OpenRusty.Server.Inject.Basic
import OpenRusty.Server.ShortCircuit

/-!
This module contains the guard of the management plane (`admin_auth.rs`). A request passes it if its path
is one of the probes, if no token is configured, or if it presents the token. A token can only be
presented as visible ASCII, so a configured token of other characters locks everybody out.
-/

namespace OpenRusty

namespace AdminAuth

abbrev RawHeaders := List (String × Bytes)

def RawHeaders.get (headers : RawHeaders) (name : String) : Option Bytes := headers.lookup name

def isVisibleAscii (b : UInt8) : Bool := 32 ≤ b && b < 127 || b == 9

def toStr (value : Bytes) : Option String :=
  if value.all isVisibleAscii then some (String.ofList (value.map fun b => Char.ofNat b.toNat)) else none

def alwaysOpen : List String := ["/openrusty/ready", "/openrusty/live"]

def isAlwaysOpen (path : String) : Bool := alwaysOpen.contains path

def nonEmpty (token : String) : Option String :=
  if token.isEmpty then none else some token

def bearer (auth : String) : Option String :=
  (((Inject.stripPrefix auth "Bearer ").or (Inject.stripPrefix auth "bearer ")).map trim).bind nonEmpty

def presentedToken (headers : RawHeaders) : Option String :=
  (((headers.get "authorization").bind toStr).bind bearer).or
    ((((headers.get "x-openrusty-token").bind toStr).map trim).bind nonEmpty)

def tokenEq (a b : String) : Bool :=
  let a := textBytes a
  let b := textBytes b
  a.length == b.length && (a.zip b).foldl (fun acc p => acc ||| (p.1 ^^^ p.2)) 0 == 0

/-- A request that goes on to its handler is answered with `none`. -/
def adminAuth (token : Option String) (path : String) (headers : RawHeaders) : Option HttpResponse :=
  if isAlwaysOpen path then
    none
  else
    match token with
    | none => none
    | some secret =>
      match (presentedToken headers).map fun presented => tokenEq presented secret with
      | some true => none
      | _ => some (textResponse 401 "401 unauthorized\n")

theorem foldl_xor_eq_zero {a b : Bytes} (h : a.length = b.length) (acc : UInt8)
    : (a.zip b).foldl (fun acc p => acc ||| (p.1 ^^^ p.2)) acc = 0 ↔ acc = 0 ∧ a = b := by
  induction a generalizing b acc with
  | nil =>
    cases b with
    | nil => simp
    | cons y b => cases h
  | cons x a ih =>
    cases b with
    | nil => cases h
    | cons y b =>
      have hlen : a.length = b.length := by simpa using h
      rw [List.zip_cons_cons, List.foldl_cons, ih hlen, UInt8.or_eq_zero_iff, UInt8.xor_eq_zero_iff, and_assoc,
        List.cons.injEq]

theorem textBytes_injective {a b : String} (h : textBytes a = textBytes b) : a = b := by
  apply String.toByteArray_inj.mp
  apply ByteArray.ext
  apply Array.toList_inj.mp
  exact h

theorem tokenEq_iff {a b : String} : tokenEq a b = true ↔ a = b := by
  unfold tokenEq
  dsimp only
  rw [Bool.and_eq_true, beq_iff_eq, beq_iff_eq]
  constructor
  . rintro ⟨hlen, hfold⟩
    apply textBytes_injective
    exact ((foldl_xor_eq_zero hlen 0).mp hfold).2
  . rintro rfl
    exact ⟨rfl, (foldl_xor_eq_zero rfl 0).mpr ⟨rfl, rfl⟩⟩

theorem adminAuth_eq_none {token : Option String} {path : String} {headers : RawHeaders}
    : adminAuth token path headers = none ↔
      isAlwaysOpen path = true ∨ token = none ∨ presentedToken headers = token := by
  unfold adminAuth
  by_cases hopen : isAlwaysOpen path = true
  . simp [hopen]
  . simp only [hopen, Bool.false_eq_true, if_false, false_or]
    cases token with
    | none => simp
    | some secret =>
      cases hpresented : presentedToken headers with
      | none => simp
      | some presented =>
        by_cases heq : presented = secret
        . simp [heq, tokenEq_iff.mpr]
        . have hne : tokenEq presented secret = false := by
            rw [Bool.eq_false_iff, ne_eq, tokenEq_iff]
            exact heq
          simp [heq, hne]

def isVisible (c : Char) : Bool := 32 ≤ c.toNat && c.toNat < 127 || c.toNat == 9

theorem isVisible_of_toStr {value : Bytes} {text : String} (h : toStr value = some text)
    : ∀ c ∈ text.toList, isVisible c = true := by
  unfold toStr at h
  split at h
  . next hall =>
    cases h
    intro c hc
    rw [String.toList_ofList, List.mem_map] at hc
    rcases hc with ⟨b, hb, rfl⟩
    have hvisible := List.all_eq_true.mp hall b hb
    have hnat : (Char.ofNat b.toNat).toNat = b.toNat := by
      have hlt := b.toNat_lt
      have hvalid : b.toNat.isValidChar := .inl (by omega)
      rw [Char.ofNat, dif_pos hvalid]
      rfl
    simp only [isVisibleAscii, Bool.or_eq_true, Bool.and_eq_true, decide_eq_true_eq, beq_iff_eq, UInt8.le_iff_toNat_le,
      UInt8.lt_iff_toNat_lt, ← UInt8.toNat_inj] at hvisible
    simpa [isVisible, hnat] using hvisible
  . cases h

theorem exists_toStr {text : String} (h : ∀ c ∈ text.toList, isVisible c = true)
    : ∃ value, toStr value = some text := by
  have hbyte : ∀ c ∈ text.toList, (UInt8.ofNat c.toNat).toNat = c.toNat := by
    intro c hc
    have hvisible := h c hc
    simp only [isVisible, Bool.or_eq_true, Bool.and_eq_true, decide_eq_true_eq, beq_iff_eq] at hvisible
    rw [UInt8.toNat_ofNat']
    omega
  refine ⟨text.toList.map fun c => UInt8.ofNat c.toNat, ?_⟩
  have hall : (text.toList.map fun c => UInt8.ofNat c.toNat).all isVisibleAscii = true := by
    rw [List.all_map, List.all_eq_true]
    intro c hc
    have hvisible := h c hc
    simp only [isVisible, Bool.or_eq_true, Bool.and_eq_true, decide_eq_true_eq, beq_iff_eq] at hvisible
    simp only [Function.comp, isVisibleAscii, Bool.or_eq_true, Bool.and_eq_true, decide_eq_true_eq, beq_iff_eq,
      UInt8.le_iff_toNat_le, UInt8.lt_iff_toNat_lt, ← UInt8.toNat_inj, hbyte c hc]
    exact hvisible
  have hmap : ((text.toList.map fun c => UInt8.ofNat c.toNat).map fun b => Char.ofNat b.toNat) = text.toList := by
    rw [List.map_map]
    calc text.toList.map ((fun b => Char.ofNat b.toNat) ∘ fun c => UInt8.ofNat c.toNat)
        = text.toList.map id := by
          apply List.map_congr_left
          intro c hc
          rw [Function.comp, hbyte c hc, Char.ofNat_toNat, id]
      _ = text.toList := List.map_id _
  rw [toStr, if_pos hall, hmap, String.ofList_toList]

theorem mem_of_mem_trim {s : String} {c : Char} (h : c ∈ (trim s).toList) : c ∈ s.toList := by
  rw [trim, String.toList_ofList] at h
  exact (List.dropWhile_sublist _).subset ((List.rdropWhile_prefix _ _).subset h)

theorem mem_of_stripPrefix {s p t : String} {c : Char} (h : Inject.stripPrefix s p = some t) (hc : c ∈ t.toList)
    : c ∈ s.toList := by
  unfold Inject.stripPrefix at h
  split at h
  . cases h
    rw [String.toList_ofList] at hc
    exact List.mem_of_mem_drop hc
  . cases h

theorem nonEmpty_eq_some {token t : String} : nonEmpty token = some t ↔ token = t ∧ t.isEmpty = false := by
  unfold nonEmpty
  split
  . next h =>
    constructor
    . intro h'
      cases h'
    . rintro ⟨rfl, h'⟩
      rw [h] at h'
      cases h'
  . next h =>
    rw [Option.some.injEq]
    constructor
    . rintro rfl
      exact ⟨rfl, by simpa using h⟩
    . exact fun h' => h'.1

theorem trim_trim (s : String) : trim (trim s) = trim s := by
  unfold trim
  rw [String.toList_ofList]
  generalize hl : s.toList.dropWhile isWhiteSpace = l
  have hidem : l.dropWhile isWhiteSpace = l := by
    rw [← hl]
    apply List.dropWhile_idempotent
  have hdrop : (l.rdropWhile isWhiteSpace).dropWhile isWhiteSpace = l.rdropWhile isWhiteSpace := by
    rw [List.dropWhile_eq_self_iff]
    intro hpos
    obtain ⟨rest, hrest⟩ := List.rdropWhile_prefix isWhiteSpace l
    have hlen : 0 < l.length := by
      rw [← hrest, List.length_append]
      omega
    rw [(List.rdropWhile_prefix isWhiteSpace l).getElem hpos]
    exact List.dropWhile_eq_self_iff.mp hidem hlen
  rw [hdrop, List.rdropWhile_idempotent]

theorem isVisible_of_presented {headers : RawHeaders} {t : String} (h : presentedToken headers = some t)
    : ∀ c ∈ t.toList, isVisible c = true := by
  unfold presentedToken at h
  rcases Option.or_eq_some_iff.mp h with hauth | ⟨-, hown⟩
  . obtain ⟨auth, hget, hbearer⟩ := Option.bind_eq_some_iff.mp hauth
    obtain ⟨value, -, hstr⟩ := Option.bind_eq_some_iff.mp hget
    obtain ⟨token, hmap, hne⟩ := Option.bind_eq_some_iff.mp hbearer
    obtain ⟨rest, hrest, rfl⟩ := Option.map_eq_some_iff.mp hmap
    obtain ⟨rfl, -⟩ := nonEmpty_eq_some.mp hne
    intro c hc
    apply isVisible_of_toStr hstr
    rcases Option.or_eq_some_iff.mp hrest with hstrip | ⟨-, hstrip⟩
    . exact mem_of_stripPrefix hstrip (mem_of_mem_trim hc)
    . exact mem_of_stripPrefix hstrip (mem_of_mem_trim hc)
  . obtain ⟨token, hmap, hne⟩ := Option.bind_eq_some_iff.mp hown
    obtain ⟨text, htext, rfl⟩ := Option.map_eq_some_iff.mp hmap
    obtain ⟨value, -, hstr⟩ := Option.bind_eq_some_iff.mp htext
    obtain ⟨rfl, -⟩ := nonEmpty_eq_some.mp hne
    intro c hc
    exact isVisible_of_toStr hstr c (mem_of_mem_trim hc)

theorem effectiveToken_eq_some {cfg : AdminConfig} {secret : String} (h : cfg.effectiveToken = some secret)
    : trim secret = secret ∧ secret.isEmpty = false := by
  rw [AdminConfig.effectiveToken, Option.filter_eq_some_iff, Option.map_eq_some_iff] at h
  obtain ⟨⟨raw, -, rfl⟩, hne⟩ := h
  exact ⟨trim_trim raw, by simpa using hne⟩

theorem presentable_iff {cfg : AdminConfig} {secret : String} (h : cfg.effectiveToken = some secret)
    : (∃ headers, presentedToken headers = some secret) ↔ ∀ c ∈ secret.toList, isVisible c = true := by
  constructor
  . rintro ⟨headers, hpresented⟩
    exact isVisible_of_presented hpresented
  . intro hvisible
    obtain ⟨htrim, hne⟩ := effectiveToken_eq_some h
    obtain ⟨value, hstr⟩ := exists_toStr hvisible
    refine ⟨[("x-openrusty-token", value)], ?_⟩
    have hauth : RawHeaders.get [("x-openrusty-token", value)] "authorization" = none := rfl
    have hown : RawHeaders.get [("x-openrusty-token", value)] "x-openrusty-token" = some value := rfl
    rw [presentedToken, hauth, hown, Option.bind_none, Option.bind_none, Option.none_or, Option.bind_some, hstr,
      Option.map_some, htrim, Option.bind_some]
    exact nonEmpty_eq_some.mpr ⟨rfl, hne⟩

end AdminAuth

end OpenRusty
