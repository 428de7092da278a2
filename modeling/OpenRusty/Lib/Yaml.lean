/-!
This module contains YAML documents as trees. The entries of a mapping keep their order, and every access
looks through tags. A value is edited in place below a path of keys; `Frame` says that such an edit is
all that has happened to a tree, and `Extends` that a list under a key has one element more.
-/

namespace Yaml

inductive Number where
  | int (n : Int)
  -- a float, as the library prints it
  | float (text : String)
  deriving DecidableEq, Repr

def Number.toString (n : Number) : String :=
  match n with
  | .int n => ToString.toString n
  | .float text => text

inductive Value where
  | null
  | bool (b : Bool)
  | number (n : Number)
  | string (s : String)
  | sequence (items : List Value)
  | mapping (entries : List (Value × Value))
  | tagged (tag : String) (value : Value)
  deriving Repr

namespace Value

def untag (v : Value) : Value :=
  match v with
  | .tagged _ v => v.untag
  | v => v

def isKey (key : String) (v : Value) : Bool :=
  match v with
  | .string s => s == key
  | _ => false

def lookup (key : String) (entries : List (Value × Value)) : Option Value :=
  match entries with
  | [] => none
  | e :: entries => if isKey key e.1 then some e.2 else lookup key entries

def get (v : Value) (key : String) : Option Value :=
  match v.untag with
  | .mapping entries => lookup key entries
  | _ => none

def asStr (v : Value) : Option String :=
  match v.untag with
  | .string s => some s
  | _ => none

def asSequence (v : Value) : Option (List Value) :=
  match v.untag with
  | .sequence items => some items
  | _ => none

def asMapping (v : Value) : Option (List (Value × Value)) :=
  match v.untag with
  | .mapping entries => some entries
  | _ => none

def getPath (v : Value) (path : List String) : Option Value :=
  match path with
  | [] => some v
  | key :: path => (v.get key).bind fun w => w.getPath path

def replace (key : String) (new : Value) (entries : List (Value × Value)) : List (Value × Value) :=
  match entries with
  | [] => []
  | e :: entries => if isKey key e.1 then (e.1, new) :: entries else e :: replace key new entries

def set (v : Value) (key : String) (new : Value) : Value :=
  match v with
  | .tagged tag v => .tagged tag (v.set key new)
  | .mapping entries => .mapping (replace key new entries)
  | v => v

def setPath (v : Value) (path : List String) (new : Value) : Value :=
  match path with
  | [] => new
  | key :: path =>
    match v.get key with
    | some w => v.set key (w.setPath path new)
    | none => v

def push (item : Value) (v : Value) : Option Value :=
  match v with
  | .tagged tag v => (push item v).map (.tagged tag)
  | .sequence items => some (.sequence (items ++ [item]))
  | _ => none

end Value

open Value

section get

variable {key key' : String} {tag : String} {v new : Value} {entries : List (Value × Value)}

@[simp]
theorem get_tagged : (Value.tagged tag v).get key = v.get key := by
  simp [Value.get, Value.untag]

@[simp]
theorem get_mapping : (Value.mapping entries).get key = lookup key entries := by
  simp [Value.get, Value.untag]

theorem asSequence_tagged : (Value.tagged tag v).asSequence = v.asSequence := by
  simp [Value.asSequence, Value.untag]

theorem lookup_eq_some {w : Value}
    : lookup key entries = some w
        ↔
      ∃ before after, (∀ e ∈ before, isKey key e.1 = false)
        ∧ entries = before ++ (.string key, w) :: after := by
  induction entries with
  | nil => simp [lookup]
  | cons e entries ih =>
    obtain ⟨k, u⟩ := e
    cases hkey : isKey key k with
    -- The first entry with the key is the one that is found, so nothing stands before it.
    | true =>
      have hk : k = .string key := by
        cases k <;> simp_all [isKey]
      subst hk
      simp only [lookup, hkey, if_true, Option.some.injEq]
      constructor
      . rintro rfl
        exact ⟨[], entries, by simp, rfl⟩
      . rintro ⟨before, after, hfree, heq⟩
        cases before with
        | nil =>
          cases heq
          rfl
        | cons e before =>
          cases heq
          have := hfree (.string key, u) (by simp)
          rw [hkey] at this
          cases this
    | false =>
      simp only [lookup, hkey, Bool.false_eq_true, if_false]
      rw [ih]
      constructor
      . rintro ⟨before, after, hfree, rfl⟩
        refine ⟨(k, u) :: before, after, ?_, rfl⟩
        intro e he
        rcases List.mem_cons.mp he with rfl | he
        . exact hkey
        . exact hfree e he
      . rintro ⟨before, after, hfree, heq⟩
        cases before with
        | nil =>
          cases heq
          simp [isKey] at hkey
        | cons e before =>
          cases heq
          exact ⟨before, after, fun e he => hfree e (List.mem_cons_of_mem _ he), rfl⟩

theorem lookup_eq_none : lookup key entries = none ↔ ∀ e ∈ entries, isKey key e.1 = false := by
  induction entries with
  | nil => simp [lookup]
  | cons e entries ih =>
    cases hkey : isKey key e.1 with
    | true => simp [lookup, hkey]
    | false => simp [lookup, hkey, ih]

theorem replace_append {before after : List (Value × Value)} {w : Value}
    (h : ∀ e ∈ before, isKey key e.1 = false)
    : replace key new (before ++ (.string key, w) :: after) = before ++ (.string key, new) :: after := by
  induction before with
  | nil => simp [replace, isKey]
  | cons e before ih =>
    rw [List.cons_append, replace, h e (by simp)]
    simp [ih fun e he => h e (List.mem_cons_of_mem _ he)]

theorem lookup_other {before after : List (Value × Value)} {w : Value} (hne : key' ≠ key)
    : lookup key' (before ++ (.string key, w) :: after) = lookup key' (before ++ after) := by
  induction before with
  | nil => simp [lookup, isKey, hne.symm]
  | cons e before ih =>
    simp only [List.cons_append, lookup, ih]

theorem lookup_self {before after : List (Value × Value)} {w : Value} (h : ∀ e ∈ before, isKey key e.1 = false)
    : lookup key (before ++ (.string key, w) :: after) = some w :=
  lookup_eq_some.mpr ⟨before, after, h, rfl⟩

end get

inductive Frame (R : Value → Value → Prop) : List String → Value → Value → Prop where
  | here {v v' : Value} : R v v' → Frame R [] v v'
  | tagged {tag key : String} {path : List String} {v v' : Value}
    : Frame R (key :: path) v v' → Frame R (key :: path) (.tagged tag v) (.tagged tag v')
  | key {key : String} {path : List String} {v v' : Value} {before after : List (Value × Value)}
    : (∀ e ∈ before, isKey key e.1 = false) → Frame R path v v' →
      Frame R (key :: path) (.mapping (before ++ (.string key, v) :: after))
        (.mapping (before ++ (.string key, v') :: after))

inductive Pushed (item : Value) : Value → Value → Prop where
  | sequence {items : List Value} : Pushed item (.sequence items) (.sequence (items ++ [item]))
  | tagged {tag : String} {v v' : Value} : Pushed item v v' → Pushed item (.tagged tag v) (.tagged tag v')

inductive Extends (key : String) (item : Value) : Value → Value → Prop where
  | tagged {tag : String} {v v' : Value} : Extends key item v v' → Extends key item (.tagged tag v) (.tagged tag v')
  | present {before after : List (Value × Value)} {v v' : Value}
    : (∀ e ∈ before, isKey key e.1 = false) → Pushed item v v' →
      Extends key item (.mapping (before ++ (.string key, v) :: after))
        (.mapping (before ++ (.string key, v') :: after))
  | absent {entries : List (Value × Value)}
    : (∀ e ∈ entries, isKey key e.1 = false) →
      Extends key item (.mapping entries) (.mapping (entries ++ [(.string key, .sequence [item])]))

section edit

variable {R : Value → Value → Prop} {key key' : String} {path : List String} {item v v' w w' : Value}

theorem push_eq_some (h : push item v = some v') : Pushed item v v' := by
  fun_induction push item v generalizing v' with
  | case1 tag v ih =>
    obtain ⟨u, hu, rfl⟩ := Option.map_eq_some_iff.mp h
    exact .tagged (ih hu)
  | case2 items =>
    cases h
    exact .sequence
  | case3 => cases h

theorem frame_set {new : Value} (hget : v.get key = some w) (h : Frame R path w new)
    : Frame R (key :: path) v (v.set key new) := by
  fun_induction Value.set v key new with
  | case1 tag v ih =>
    rw [get_tagged] at hget
    exact .tagged (ih hget)
  | case2 entries =>
    rw [get_mapping] at hget
    obtain ⟨before, after, hfree, rfl⟩ := lookup_eq_some.mp hget
    rw [replace_append hfree]
    exact .key hfree h
  | case3 v htagged hmapping =>
    cases v with
    | tagged tag v => exact absurd rfl (htagged tag v)
    | mapping entries => exact absurd rfl (hmapping entries)
    | _ => cases hget

theorem frame_setPath (hget : v.getPath path = some w) (h : R w w') : Frame R path v (v.setPath path w') := by
  induction path generalizing v with
  | nil =>
    cases hget
    exact .here h
  | cons key path ih =>
    obtain ⟨u, hu, hrest⟩ := Option.bind_eq_some_iff.mp hget
    rw [Value.setPath, hu]
    exact frame_set hu (ih hrest)

theorem Frame.get_other (h : Frame R (key :: path) v v') (hne : key' ≠ key) : v'.get key' = v.get key' := by
  generalize hpath : key :: path = p at h
  induction h with
  | here => cases hpath
  | tagged _ ih =>
    rw [get_tagged, get_tagged]
    exact ih hpath
  | key hfree _ =>
    cases hpath
    rw [get_mapping, get_mapping, lookup_other hne, lookup_other hne]

theorem Frame.get_self (h : Frame R (key :: path) v v')
    : ∃ w w', v.get key = some w ∧ v'.get key = some w' ∧ Frame R path w w' := by
  generalize hpath : key :: path = p at h
  induction h with
  | here => cases hpath
  | tagged _ ih =>
    rw [get_tagged, get_tagged]
    exact ih hpath
  | key hfree hframe =>
    cases hpath
    rw [get_mapping, get_mapping, lookup_self hfree, lookup_self hfree]
    exact ⟨_, _, rfl, rfl, hframe⟩

theorem Frame.getPath (h : Frame R path v v')
    : ∃ w w', v.getPath path = some w ∧ v'.getPath path = some w' ∧ R w w' := by
  induction path generalizing v v' with
  | nil =>
    cases h with
    | here h => exact ⟨v, v', rfl, rfl, h⟩
  | cons key path ih =>
    obtain ⟨u, u', hu, hu', hframe⟩ := h.get_self
    obtain ⟨w, w', hw, hw', hR⟩ := ih hframe
    exact ⟨w, w', by simp [Value.getPath, hu, hw], by simp [Value.getPath, hu', hw'], hR⟩

theorem Pushed.asSequence (h : Pushed item v v')
    : ∃ items, v.asSequence = some items ∧ v'.asSequence = some (items ++ [item]) := by
  induction h with
  | sequence => exact ⟨_, rfl, rfl⟩
  | tagged _ ih =>
    rw [asSequence_tagged, asSequence_tagged]
    exact ih

theorem Extends.get_other (h : Extends key item v v') (hne : key' ≠ key) : v'.get key' = v.get key' := by
  induction h with
  | tagged _ ih =>
    rw [get_tagged, get_tagged, ih]
  | present hfree _ => rw [get_mapping, get_mapping, lookup_other hne, lookup_other hne]
  | absent hfree => rw [get_mapping, get_mapping, lookup_other hne, List.append_nil]

theorem Extends.get_self (h : Extends key item v v')
    : ∃ items, (v'.get key).bind Value.asSequence = some (items ++ [item])
      ∧ ((v.get key).bind Value.asSequence).getD [] = items := by
  induction h with
  | tagged _ ih =>
    rw [get_tagged, get_tagged]
    exact ih
  | present hfree hpushed =>
    obtain ⟨items, hitems, hitems'⟩ := hpushed.asSequence
    rw [get_mapping, get_mapping, lookup_self hfree, lookup_self hfree]
    exact ⟨items, hitems', by rw [Option.bind_some, hitems, Option.getD_some]⟩
  | absent hfree =>
    rw [get_mapping, get_mapping, lookup_self hfree, lookup_eq_none.mpr hfree]
    exact ⟨[], rfl, rfl⟩

end edit

end Yaml
