import OpenRusty.Core.Context
import OpenRusty.Core.Text

/-!
This module contains the messages of HTTP as the proxy handles them. Which texts are a request URI, the
name of a header or the value of one is decided by the `http` crate, it is a parameter here. A header
map keeps its names in lower case, and the values of one name in the order they were appended in.
-/

namespace OpenRusty

structure HttpSyntax where
  uri : String → Bool
  headerName : String → Bool
  headerValue : String → Bool

def HttpSyntax.visible : HttpSyntax where
  uri text := text.toList.all fun c => decide (0x20 < c.toNat ∧ c.toNat < 0x7f)
  headerName text := !text.isEmpty && text.toList.all fun c => c.isAlphanum || c == '-'
  headerValue text := text.toList.all fun c => decide (0x20 ≤ c.toNat ∧ c.toNat < 0x7f)

abbrev HeaderMap := List (String × String)

namespace HeaderMap

def getAll (headers : HeaderMap) (name : String) : List String :=
  (headers.filter fun h => h.1 == name).map Prod.snd

def append (headers : HeaderMap) (name value : String) : HeaderMap := headers ++ [(name, value)]

def insert (headers : HeaderMap) (name value : String) : HeaderMap :=
  (headers.filter fun h => h.1 != name) ++ [(name, value)]

def ofPairs (syn : HttpSyntax) (pairs : List (String × String)) : HeaderMap :=
  (pairs.filter fun h => syn.headerName h.1 && syn.headerValue h.2).map fun h =>
    (toAsciiLowercase h.1, h.2)

variable (headers headers' : HeaderMap) (name value : String)

@[simp]
theorem getAll_concat
    : getAll (headers ++ headers') name = getAll headers name ++ getAll headers' name := by
  simp [getAll]

@[simp]
theorem getAll_singleton_self : getAll [(name, value)] name = [value] := by
  simp [getAll]

variable {name}

theorem getAll_singleton_ne {other : String} (h : other ≠ name) : getAll [(other, value)] name = [] := by
  simp [getAll, h]

theorem getAll_append_ne {other : String} (h : other ≠ name)
    : getAll (headers.append other value) name = getAll headers name := by
  rw [append, getAll_concat, getAll_singleton_ne value h, List.append_nil]

theorem getAll_insert_self : getAll (headers.insert name value) name = [value] := by
  rw [insert, getAll_concat, getAll_singleton_self]
  simp [getAll]

theorem getAll_insert_ne {other : String} (h : other ≠ name)
    : getAll (headers.insert other value) name = getAll headers name := by
  rw [insert, getAll_concat, getAll_singleton_ne value h, List.append_nil]
  unfold getAll
  rw [List.filter_filter]
  congr 1
  apply List.filter_congr
  intro p _
  by_cases hp : p.1 = name
  . simp [hp, Ne.symm h]
  . simp [hp]

theorem getAll_ofPairs_append (syn : HttpSyntax) (pairs pairs' : List (String × String))
    : getAll (ofPairs syn (pairs ++ pairs')) name
      = getAll (ofPairs syn pairs) name ++ getAll (ofPairs syn pairs') name := by
  unfold ofPairs
  rw [List.filter_append, List.map_append, getAll_concat]

theorem getAll_ofPairs_cons (syn : HttpSyntax) (pair : String × String)
    (pairs : List (String × String))
    : getAll (ofPairs syn (pair :: pairs)) name
      = (if syn.headerName pair.1 && syn.headerValue pair.2 && toAsciiLowercase pair.1 == name then
          [pair.2]
        else
          [])
        ++ getAll (ofPairs syn pairs) name := by
  unfold ofPairs getAll
  rw [List.filter_cons]
  by_cases hheader : (syn.headerName pair.1 && syn.headerValue pair.2) = true
  . rw [if_pos hheader, List.map_cons, List.filter_cons, hheader, Bool.true_and]
    split
    . rfl
    . rfl
  . rw [if_neg hheader, Bool.eq_false_iff.mpr hheader]
    rfl

theorem getAll_ofPairs_eq_nil {syn : HttpSyntax} {pairs : List (String × String)}
    (h : ∀ p ∈ pairs, toAsciiLowercase p.1 ≠ name)
    : getAll (ofPairs syn pairs) name = [] := by
  unfold getAll ofPairs
  rw [List.map_eq_nil_iff, List.filter_eq_nil_iff]
  intro p hp
  rcases List.mem_map.mp hp with ⟨q, hq, rfl⟩
  simpa using h q (List.mem_of_mem_filter hq)

theorem eq_nil_of_getAll {headers : HeaderMap} (h : ∀ name, headers.getAll name = []) : headers = [] := by
  cases headers with
  | nil => rfl
  | cons p headers =>
    have hp := h p.1
    simp [getAll] at hp

theorem eq_singleton_of_getAll {headers : HeaderMap} {value : String}
    (h : ∀ other, headers.getAll other = getAll [(name, value)] other)
    : headers = [(name, value)] := by
  have hname : ∀ p ∈ headers, p.1 = name := by
    intro p hp
    by_contra hne
    have hother := h p.1
    rw [getAll_singleton_ne value (Ne.symm hne), getAll, List.map_eq_nil_iff,
      List.filter_eq_nil_iff] at hother
    have := hother p hp
    simp at this
  have hvalues := h name
  rw [getAll_singleton_self, getAll, List.filter_eq_self.mpr] at hvalues
  . rcases List.map_eq_singleton_iff.mp hvalues with ⟨p, rfl, rfl⟩
    rw [← hname p (by simp)]
  . intro p hp
    simpa using hname p hp

end HeaderMap

inductive HttpVersion where
  | http11
  | http2
  deriving DecidableEq, Repr

structure Uri where
  path : String
  query : Option String := none
  authority : Option String := none
  noQuery : '?' ∉ path.toList := by decide

def Uri.pathAndQuery (uri : Uri) : String := uri.path ++ uri.query.elim "" fun query => "?" ++ query

/-- The value of a header is `none` if it is not visible ASCII text. -/
structure HttpRequest where
  method : String
  uri : Uri
  version : HttpVersion := .http11
  headers : List (String × Option String)

namespace HttpRequest

def textHeaders (req : HttpRequest) : List (String × String) :=
  req.headers.filterMap fun h => h.2.map fun value => (h.1, value)

def versionStr (req : HttpRequest) : String :=
  match req.version with
  | .http2 => "HTTP/2"
  | .http11 => "HTTP/1.1"

end HttpRequest

structure HttpResponse where
  status : Nat
  headers : HeaderMap := []
  body : Bytes := []
  deriving DecidableEq, Repr

def SameResponse (resp resp' : HttpResponse) : Prop :=
  resp.status = resp'.status ∧ resp.body = resp'.body
    ∧ ∀ name, resp.headers.getAll name = resp'.headers.getAll name

end OpenRusty
