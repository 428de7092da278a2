import OpenRusty.Lib.TomlString

/-!
This module contains TOML documents: what stands at each address. The reader knows the part of the
language in which a statement has a line of its own: headers of bare keys, and bare keys with a string or a
truth value. It finds the document, or that there is none, or it gets stuck at what it does not know. Since
no statement changes what was said before it, a document then has at least what was read until there.
-/

namespace Toml

inductive Seg where
  | key (name : String)
  | index (n : Nat)
  deriving DecidableEq

abbrev Addr := List Seg

inductive Node where
  | table
  /-- An array of tables -/
  | tables
  | string (text : String)
  | bool (b : Bool)
  /-- A value of another type, as it is written -/
  | other (text : String)
  deriving DecidableEq

abbrev Doc := Addr → Option Node

abbrev Nodes := List (Addr × Node)

def docOf (nodes : Nodes) : Doc := fun a => nodes.lookup a

inductive Statement where
  | skip
  | table (path : List String)
  | tables (path : List String)
  | set (key : String) (value : Node)

section exec

structure State where
  nodes : Nodes := []
  here : Addr := []

def Seg.isIndex (s : Seg) : Bool :=
  match s with
  | .index _ => true
  | .key _ => false

def count (nodes : Nodes) (a : Addr) : Nat :=
  nodes.countP fun e => e.1.dropLast == a && e.1.getLast?.any Seg.isIndex

def enter (nodes : Nodes) (a : Addr) (path : List String) : Option (Nodes × Addr) :=
  match path with
  | [] => some (nodes, a)
  | key :: path =>
    let b := a ++ [.key key]
    match nodes.lookup b with
    | none => enter (nodes ++ [(b, .table)]) b path
    | some .table => enter nodes b path
    | some .tables => enter nodes (b ++ [.index (count nodes b - 1)]) path
    | some _ => none

def openTable (nodes : Nodes) (b : Addr) : Option State :=
  match nodes.lookup b with
  | none => some ⟨nodes ++ [(b, .table)], b⟩
  | some _ => none

def pushTable (nodes : Nodes) (b : Addr) : Option State :=
  match nodes.lookup b with
  | none => some ⟨nodes ++ [(b, .tables), (b ++ [.index 0], .table)], b ++ [.index 0]⟩
  | some .tables =>
    let c := b ++ [.index (count nodes b)]
    some ⟨nodes ++ [(c, .table)], c⟩
  | some _ => none

def Statement.exec (s : Statement) (st : State) : Option State :=
  match s with
  | .skip => some st
  | .table path =>
    (enter st.nodes [] path.dropLast).bind fun e => openTable e.1 (e.2 ++ path.getLast?.toList.map .key)
  | .tables path =>
    (enter st.nodes [] path.dropLast).bind fun e => pushTable e.1 (e.2 ++ path.getLast?.toList.map .key)
  | .set key value =>
    let b := st.here ++ [.key key]
    match st.nodes.lookup b with
    | none => some { st with nodes := st.nodes ++ [(b, value)] }
    | some _ => none

def execAll (statements : List Statement) (st : State) : Option State :=
  match statements with
  | [] => some st
  | s :: statements => (s.exec st).bind (execAll statements)

@[simp]
theorem key_beq (a b : String) : (Seg.key a == Seg.key b) = (a == b) := by
  rw [Bool.eq_iff_iff]
  simp

@[simp]
theorem index_beq (m n : Nat) : (Seg.index m == Seg.index n) = (m == n) := by
  rw [Bool.eq_iff_iff]
  simp

theorem execAll_append (before after : List Statement) (st : State)
    : execAll (before ++ after) st = (execAll before st).bind (execAll after) := by
  induction before generalizing st with
  | nil => rfl
  | cons s before ih =>
    rw [List.cons_append, execAll, execAll]
    cases s.exec st with
    | none => rfl
    | some st => exact ih st

def Fresh (nodes : Nodes) (key : String) : Prop := ∀ e ∈ nodes, e.1.head? ≠ some (.key key)

theorem Fresh.append {key : String} {before after : Nodes} (hbefore : Fresh before key) (hafter : Fresh after key)
    : Fresh (before ++ after) key := by
  intro e he
  rcases List.mem_append.mp he with he | he
  . exact hbefore e he
  . exact hafter e he

theorem Fresh.lookup {nodes : Nodes} {key : String} (h : Fresh nodes key) (a : Addr)
    : nodes.lookup (.key key :: a) = none := by
  rw [List.lookup_eq_none_iff]
  intro e he
  rw [bne_iff_ne]
  intro heq
  apply h e he
  rw [← heq]
  rfl

theorem count_of_fresh {nodes : Nodes} {key : String} (h : Fresh nodes key) : count nodes [.key key] = 0 := by
  unfold count
  rw [List.countP_eq_zero]
  intro e he hcount
  rw [Bool.and_eq_true, beq_iff_eq] at hcount
  apply h e he
  cases hpath : e.1 with
  | nil =>
    rw [hpath] at hcount
    cases hcount.1
  | cons s rest =>
    rw [hpath] at hcount
    cases rest with
    | nil => cases hcount.1
    | cons s' rest =>
      have := hcount.1
      rw [List.dropLast_cons_cons, List.cons_eq_cons] at this
      rw [this.1]
      rfl

theorem count_append (before after : Nodes) (a : Addr)
    : count (before ++ after) a = count before a + count after a := by
  unfold count
  rw [List.countP_append]

theorem prefix_of_enter {nodes : Nodes} {a : Addr} {path : List String} {e : Nodes × Addr}
    (h : enter nodes a path = some e)
    : nodes <+: e.1 := by
  fun_induction enter nodes a path with
  | case1 =>
    cases h
    exact List.prefix_rfl
  | case2 nodes a key path b hlookup ih => exact (List.prefix_append _ _).trans (ih h)
  | case3 nodes a key path b hlookup ih => exact ih h
  | case4 nodes a key path b hlookup ih => exact ih h
  | case5 => cases h

theorem prefix_of_exec {s : Statement} {st st' : State} (h : s.exec st = some st') : st.nodes <+: st'.nodes := by
  cases s with
  | skip =>
    cases h
    exact List.prefix_rfl
  | table path =>
    obtain ⟨e, henter, h⟩ := Option.bind_eq_some_iff.mp h
    apply (prefix_of_enter henter).trans
    unfold openTable at h
    split at h
    . cases h
      exact List.prefix_append _ _
    . cases h
  | tables path =>
    obtain ⟨e, henter, h⟩ := Option.bind_eq_some_iff.mp h
    apply (prefix_of_enter henter).trans
    unfold pushTable at h
    split at h
    . cases h
      exact List.prefix_append _ _
    . cases h
      exact List.prefix_append _ _
    . cases h
  | set key value =>
    simp only [Statement.exec] at h
    split at h
    . cases h
      exact List.prefix_append _ _
    . cases h

end exec

section parse

def isBare (c : Char) : Bool :=
  'a' ≤ c && c ≤ 'z' || 'A' ≤ c && c ≤ 'Z' || '0' ≤ c && c ≤ '9' || c == '_' || c == '-'

def skipBlank (chars : List Char) : List Char := chars.dropWhile isBlank

def comment (chars : List Char) : Option (List Char) :=
  match chars with
  | [] => some []
  | '\n' :: rest => some rest
  | '\r' :: '\n' :: rest => some rest
  | c :: rest => if isControl c then none else comment rest

def endLine (chars : List Char) : Option (List Char) :=
  match skipBlank chars with
  | [] => some []
  | '\n' :: rest => some rest
  | '\r' :: '\n' :: rest => some rest
  | '#' :: rest => comment rest
  | _ => none

inductive Parsed where
  | statement (s : Statement) (rest : List Char)
  | finish
  | malformed
  | stuck

def header (chars : List Char) : Option (List String × List Char) :=
  let inPath := fun c => isBare c || c == '.'
  let path := ((chars.takeWhile inPath).splitOn '.').map String.ofList
  if path.contains "" then none else some (path, chars.dropWhile inPath)

def value (d : Dialect) (key : String) (chars : List Char) : Parsed :=
  match chars with
  | '"' :: rest =>
    match readString d rest with
    | some (text, rest) => .statement (.set key (.string (String.ofList text))) rest
    | none => .malformed
  | 't' :: 'r' :: 'u' :: 'e' :: rest => .statement (.set key (.bool true)) rest
  | 'f' :: 'a' :: 'l' :: 's' :: 'e' :: rest => .statement (.set key (.bool false)) rest
  | _ => .stuck

def keyValue (d : Dialect) (chars : List Char) : Parsed :=
  let key := chars.takeWhile isBare
  if key.isEmpty then
    .stuck
  else
    match skipBlank (chars.dropWhile isBare) with
    | '=' :: rest => value d (String.ofList key) (skipBlank rest)
    | _ => .stuck

def parseStatement (d : Dialect) (chars : List Char) : Parsed :=
  match skipBlank chars with
  | [] => .finish
  | '\n' :: rest => .statement .skip ('\n' :: rest)
  | '\r' :: rest => .statement .skip ('\r' :: rest)
  | '#' :: rest => .statement .skip ('#' :: rest)
  | '[' :: '[' :: rest =>
    match header rest with
    | some (path, ']' :: ']' :: rest) => .statement (.tables path) rest
    | _ => .stuck
  | '[' :: rest =>
    match header rest with
    | some (path, ']' :: rest) => .statement (.table path) rest
    | _ => .stuck
  | chars => keyValue d chars

end parse

section read

inductive Outcome where
  | complete (nodes : Nodes)
  | malformed
  | stuck (nodes : Nodes)

variable (d : Dialect)

def readFrom (st : State) (chars : List Char) : Outcome :=
  match parseStatement d chars with
  | .finish => .complete st.nodes
  | .malformed => .malformed
  | .stuck => .stuck st.nodes
  | .statement s rest =>
    match s.exec st with
    | none => .stuck st.nodes
    | some st =>
      match endLine rest with
      | none => .stuck st.nodes
      | some rest => if rest.length < chars.length then readFrom st rest else .stuck st.nodes
termination_by chars.length

def readDoc (src : String) : Outcome := readFrom d {} src.toList

def Outcome.nodes (o : Outcome) : Option Nodes :=
  match o with
  | .complete nodes => some nodes
  | .malformed => none
  | .stuck nodes => some nodes

/-- What a parser may answer to what the reader found. -/
def Outcome.Allows (o : Outcome) (result : Except String Doc) : Prop :=
  match o with
  | .complete nodes => result = .ok (docOf nodes)
  | .malformed => ∃ e, result = .error e
  | .stuck nodes => ∀ doc, result = .ok doc → ∀ a n, docOf nodes a = some n → doc a = some n

variable {d}

theorem prefix_of_readFrom {st : State} {chars : List Char} {nodes : Nodes}
    (h : (readFrom d st chars).nodes = some nodes)
    : st.nodes <+: nodes := by
  fun_induction readFrom d st chars with
  | case1 =>
    cases h
    exact List.prefix_rfl
  | case2 => cases h
  | case3 =>
    cases h
    exact List.prefix_rfl
  | case4 =>
    cases h
    exact List.prefix_rfl
  | case5 st chars s rest hparse st' hexec =>
    cases h
    exact prefix_of_exec hexec
  | case6 st chars s rest hparse st' hexec rest' hend hlt ih => exact (prefix_of_exec hexec).trans (ih h)
  | case7 st chars s rest hparse st' hexec =>
    cases h
    exact prefix_of_exec hexec

end read

section reads

variable {d : Dialect} {st st' : State} {line tail : List Char} {s : Statement}

def Reads (d : Dialect) (line : List Char) (s : Statement) : Prop :=
  ∀ tail, ∃ rest, parseStatement d (line ++ '\n' :: tail) = .statement s rest ∧ endLine rest = some tail

theorem readFrom_nil (st : State) : readFrom d st [] = .complete st.nodes := by
  rw [readFrom]
  rfl

theorem readFrom_cons (h : Reads d line s) (hexec : s.exec st = some st')
    : readFrom d st (line ++ '\n' :: tail) = readFrom d st' tail := by
  obtain ⟨rest, hparse, hend⟩ := h tail
  have hlt : tail.length < (line ++ '\n' :: tail).length := by
    simp
    omega
  rw [readFrom, hparse]
  dsimp only
  rw [hexec]
  dsimp only
  rw [hend]
  dsimp only
  rw [if_pos hlt]

theorem readFrom_lines {lines : List (List Char)} {statements : List Statement}
    (h : List.Forall₂ (Reads d) lines statements) (hexec : execAll statements st = some st')
    : readFrom d st (lines.flatMap (fun line => line ++ ['\n']) ++ tail) = readFrom d st' tail := by
  induction h generalizing st with
  | nil =>
    cases hexec
    rfl
  | @cons line s lines statements hline _ ih =>
    obtain ⟨st₁, hfirst, hrest⟩ := Option.bind_eq_some_iff.mp hexec
    rw [List.flatMap_cons, List.append_assoc, List.append_assoc, List.singleton_append, readFrom_cons hline hfirst]
    exact ih hrest

def Opens (d : Dialect) (start : List Char) (key : String) : Prop :=
  ∀ rest, parseStatement d (start ++ rest) = value d key ('"' :: rest)

variable {start text : List Char} {key : String}

theorem reads_plain (hopens : Opens d start key) (hplain : Plain text)
    : Reads d (start ++ text ++ ['"']) (.set key (.string (String.ofList text))) := by
  intro tail
  refine ⟨'\n' :: tail, ?_, rfl⟩
  rw [List.append_assoc, List.append_assoc, hopens, value, List.singleton_append, readString_plain hplain (by simp)]

theorem readFrom_quote (hopens : Opens d start key) (hplain : ¬Plain text) (hsparse : Sparse tail)
    (hfree : st.nodes.lookup (st.here ++ [.key key]) = none) {nodes : Nodes}
    (h : (readFrom d st (start ++ text ++ '"' :: '\n' :: tail)).nodes = some nodes)
    : ∃ v, v ≠ text ∧ st.nodes ++ [(st.here ++ [.key key], .string (String.ofList v))] <+: nodes := by
  rw [List.append_assoc, readFrom, hopens, value] at h
  cases hread : readString d (text ++ '"' :: '\n' :: tail) with
  | none =>
    rw [hread] at h
    cases h
  | some r =>
    obtain ⟨v, rest⟩ := r
    rw [hread] at h
    have hne : v ≠ text := by
      rintro rfl
      rcases readString_quote hsparse hread with ⟨-, hp⟩ | hlt
      . exact hplain hp
      . exact lt_irrefl _ hlt
    refine ⟨v, hne, ?_⟩
    simp only [Statement.exec, hfree] at h
    split at h
    . cases h
      exact List.prefix_rfl
    . split at h
      . exact prefix_of_readFrom h
      . cases h
        exact List.prefix_rfl

theorem sparse_of_free {chars : List Char} (h : '"' ∉ chars) : Sparse chars := by
  apply List.Pairwise.isChain
  apply List.pairwise_of_forall_mem_list
  rintro a ha b - ⟨rfl, -⟩
  exact h ha

end reads

section standard

def Standard (parse : String → Except String Doc) : Prop :=
  ∃ d : Dialect, ∀ src, (readDoc d src).Allows (parse src)

def Dialect.unix : Dialect where
  lf := ['\n']
  crlf := ['\n']
  newlines := by simp

def reader (d : Dialect) (src : String) : Except String Doc :=
  match readDoc d src with
  | .complete nodes => .ok (docOf nodes)
  | .malformed => .error "TOML parse error"
  | .stuck _ => .error "not a statement of this part of the language"

theorem standard_reader (d : Dialect) : Standard (reader d) := by
  refine ⟨d, ?_⟩
  intro src
  unfold reader
  cases readDoc d src with
  | complete nodes => rfl
  | malformed => exact ⟨_, rfl⟩
  | stuck nodes =>
    intro doc h
    cases h

theorem docOf_of_prefix {nodes nodes' : Nodes} (h : nodes <+: nodes') {a : Addr} {n : Node}
    (hget : docOf nodes a = some n)
    : docOf nodes' a = some n := by
  obtain ⟨rest, rfl⟩ := h
  unfold docOf at hget ⊢
  rw [List.lookup_append, hget]
  rfl

theorem Outcome.Allows.get {o : Outcome} {doc : Doc} (h : o.Allows (.ok doc))
    : ∃ nodes, o.nodes = some nodes ∧ ∀ a n, docOf nodes a = some n → doc a = some n := by
  cases o with
  | complete nodes =>
    cases h
    exact ⟨nodes, rfl, fun a n hget => hget⟩
  | malformed =>
    obtain ⟨e, he⟩ := h
    cases he
  | stuck nodes => exact ⟨nodes, rfl, h doc rfl⟩

end standard

end Toml
