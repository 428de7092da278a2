import OpenRusty.Wasm.Rewrite

/-!
This module contains the calls by which a plugin writes the response (`linker.rs`) and the replay of the
recorded header edits (`dynamic.rs`). A call changes the headers at once, so that the replay applies
every edit for the second time; it leaves the headers of every name as they are.
-/

namespace OpenRusty

def respBodyMaxBytes : Nat := 1024 * 1024

def setFirstHeader (headers : List (String × String)) (name value : String) : List (String × String) :=
  match headers with
  | [] => [(name, value)]
  | h :: headers =>
    if eqIgnoreAsciiCase h.1 name then
      (h.1, value) :: headers
    else
      h :: setFirstHeader headers name value

def HeaderEdit.apply (headers : List (String × String)) (edit : HeaderEdit) : List (String × String) :=
  match edit with
  | .set name value => setFirstHeader headers name value
  | .del name => delHeader headers name

inductive RespCall where
  | headerSet (name value : Option String)
  | headerDel (name : Option String)
  | bodySet (bytes : Option Bytes)
  deriving DecidableEq, Repr

namespace HostData

def editResp (hd : HostData) (edit : HeaderEdit) : HostData :=
  { hd with respHeaders := edit.apply hd.respHeaders, respEdits := hd.respEdits ++ [edit] }

def respHeaderSet (hd : HostData) (name value : Option String) : Int × HostData :=
  match name, value with
  | some name, some value => (0, hd.editResp (.set name value))
  | _, _ => (-1, hd)

def respHeaderDel (hd : HostData) (name : Option String) : Int × HostData :=
  match name with
  | some name => (0, hd.editResp (.del name))
  | none => (-1, hd)

def respBodySet (hd : HostData) (bytes : Option Bytes) : Int × HostData :=
  match bytes with
  | some bytes =>
    if bytes.length ≤ respBodyMaxBytes then
      (bytes.length, { hd with respBody := some bytes })
    else
      (-1, hd)
  | none => (-1, hd)

def respond (hd : HostData) (call : RespCall) : Int × HostData :=
  match call with
  | .headerSet name value => hd.respHeaderSet name value
  | .headerDel name => hd.respHeaderDel name
  | .bodySet bytes => hd.respBodySet bytes

def responds (hd : HostData) (calls : List RespCall) : HostData :=
  calls.foldl (fun hd call => (hd.respond call).2) hd

theorem respond_edits (hd : HostData) (call : RespCall)
    : ∃ edits, (hd.respond call).2.respEdits = hd.respEdits ++ edits
      ∧ (hd.respond call).2.respHeaders = edits.foldl HeaderEdit.apply hd.respHeaders := by
  unfold respond
  split
  . unfold respHeaderSet
    split
    . exact ⟨[_], rfl, rfl⟩
    . exact ⟨[], by simp, rfl⟩
  . unfold respHeaderDel
    split
    . exact ⟨[_], rfl, rfl⟩
    . exact ⟨[], by simp, rfl⟩
  . unfold respBodySet
    split
    . split
      . exact ⟨[], by simp, rfl⟩
      . exact ⟨[], by simp, rfl⟩
    . exact ⟨[], by simp, rfl⟩

theorem responds_edits (hd : HostData) (calls : List RespCall)
    : ∃ edits, (hd.responds calls).respEdits = hd.respEdits ++ edits
      ∧ (hd.responds calls).respHeaders = edits.foldl HeaderEdit.apply hd.respHeaders := by
  unfold responds
  induction calls generalizing hd with
  | nil => exact ⟨[], by simp, rfl⟩
  | cons call calls ih =>
    rw [List.foldl_cons]
    rcases hd.respond_edits call with ⟨edits, hedits, hheaders⟩
    rcases ih (hd.respond call).2 with ⟨edits', hedits', hheaders'⟩
    refine ⟨edits ++ edits', ?_, ?_⟩
    . rw [hedits', hedits, List.append_assoc]
    . rw [hheaders', hheaders, List.foldl_append]

end HostData

def finalHeaders (headers : List (String × String)) (edits : List HeaderEdit)
    : List (String × String) :=
  edits.foldl HeaderEdit.apply headers

def headersOf (headers : List (String × String)) (name : String) : List (String × String) :=
  headers.filter fun h => toAsciiLowercase h.1 == name

namespace HeaderEdit

def applyOf (name : String) (headers : List (String × String)) (edit : HeaderEdit)
    : List (String × String) :=
  match edit with
  | .set n value =>
    if toAsciiLowercase n = name then
      match headers with
      | [] => [(n, value)]
      | h :: headers => (h.1, value) :: headers
    else
      headers
  | .del n => if toAsciiLowercase n = name then [] else headers

theorem headersOf_setFirstHeader (headers : List (String × String)) (n value name : String)
    : headersOf (setFirstHeader headers n value) name
      = applyOf name (headersOf headers name) (.set n value) := by
  unfold headersOf applyOf
  induction headers with
  | nil =>
    unfold setFirstHeader
    by_cases hname : toAsciiLowercase n = name
    . simp [hname]
    . simp [hname]
  | cons h headers ih =>
    unfold setFirstHeader
    by_cases heq : eqIgnoreAsciiCase h.1 n = true
    . rw [if_pos heq]
      rw [eqIgnoreAsciiCase_iff] at heq
      by_cases hname : toAsciiLowercase n = name
      . simp [heq, hname]
      . simp [heq, hname]
    . rw [if_neg heq]
      rw [eqIgnoreAsciiCase_iff] at heq
      by_cases hname : toAsciiLowercase n = name
      . have hh : toAsciiLowercase h.1 ≠ name := by
          intro hh
          apply heq
          rw [hh, hname]
        rw [List.filter_cons, List.filter_cons]
        simp only [hh, beq_iff_eq, if_false]
        assumption
      . dsimp only at ih ⊢
        rw [if_neg hname] at ih
        rw [if_neg hname, List.filter_cons, List.filter_cons, ih]

theorem headersOf_delHeader (headers : List (String × String)) (n name : String)
    : headersOf (delHeader headers n) name = applyOf name (headersOf headers name) (.del n) := by
  unfold headersOf applyOf delHeader
  dsimp only
  rw [List.filter_filter]
  by_cases hname : toAsciiLowercase n = name
  . rw [if_pos hname, List.filter_eq_nil_iff]
    intro h _
    simp only [Bool.and_eq_true, beq_iff_eq, Bool.not_eq_true', Bool.eq_false_iff, ne_eq,
      eqIgnoreAsciiCase_iff, hname, not_and, not_not]
    intro hh
    assumption
  . rw [if_neg hname]
    apply List.filter_congr
    intro h _
    by_cases hh : toAsciiLowercase h.1 = name
    . have hne : eqIgnoreAsciiCase h.1 n = false := by
        rw [Bool.eq_false_iff, ne_eq, eqIgnoreAsciiCase_iff, hh]
        exact Ne.symm hname
      simp [hh, hne]
    . simp [hh]

theorem headersOf_finalHeaders (headers : List (String × String)) (edits : List HeaderEdit)
    (name : String)
    : headersOf (finalHeaders headers edits) name
      = edits.foldl (applyOf name) (headersOf headers name) := by
  unfold finalHeaders
  induction edits generalizing headers with
  | nil => rfl
  | cons edit edits ih =>
    rw [List.foldl_cons, List.foldl_cons, ih]
    cases edit with
    | set n value => rw [apply, headersOf_setFirstHeader]
    | del n => rw [apply, headersOf_delHeader]

theorem foldl_applyOf_cases (name : String) (edits : List HeaderEdit)
    : (∀ headers, edits.foldl (applyOf name) headers = headers)
        ∨
      (∃ n value, edits.foldl (applyOf name) [] = [(n, value)]
        ∧ ∀ h headers, edits.foldl (applyOf name) (h :: headers) = (h.1, value) :: headers)
        ∨
      ∃ result, ∀ headers, edits.foldl (applyOf name) headers = result := by
  induction edits with
  | nil =>
    left
    intro headers
    rfl
  | cons edit edits ih =>
    simp only [List.foldl_cons]
    cases edit with
    -- A `set` behind a `set` keeps the place of the header and takes the later value.
    | set n value =>
      unfold applyOf
      by_cases hname : toAsciiLowercase n = name
      . simp only [hname, if_true]
        rcases ih with hkeep | ⟨m, v, hnil, hcons⟩ | ⟨result, hresult⟩
        . right
          left
          refine ⟨n, value, ?_, ?_⟩
          . apply hkeep
          . intro h headers
            apply hkeep
        . right
          left
          refine ⟨n, v, ?_, ?_⟩
          . apply hcons
          . intro h headers
            apply hcons
        . right
          right
          refine ⟨result, ?_⟩
          intro headers
          apply hresult
      . simp only [hname, if_false]
        assumption
    | del n =>
      unfold applyOf
      by_cases hname : toAsciiLowercase n = name
      . simp only [hname, if_true]
        right
        right
        refine ⟨edits.foldl (applyOf name) [], ?_⟩
        intro headers
        rfl
      . simp only [hname, if_false]
        assumption

end HeaderEdit

theorem headersOf_replay (edits : List HeaderEdit) (name : String)
    : headersOf (finalHeaders (finalHeaders [] edits) edits) name
      = headersOf (finalHeaders [] edits) name := by
  rw [HeaderEdit.headersOf_finalHeaders, HeaderEdit.headersOf_finalHeaders]
  unfold headersOf
  rw [List.filter_nil]
  rcases HeaderEdit.foldl_applyOf_cases name edits with hkeep | ⟨n, value, hnil, hcons⟩ | ⟨result, hresult⟩
  . rw [hkeep, hkeep]
  . rw [hnil, hcons]
  . rw [hresult, hresult]

end OpenRusty
