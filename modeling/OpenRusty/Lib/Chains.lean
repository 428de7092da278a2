import Mathlib.Logic.Function.Basic

/-!
This module contains the tables of a packet filter: named chains of rules, the commands that create,
flush, search and extend a chain, and the rule that decides a packet in a chain, the first one that
matches. Rules are arbitrary; `jump` gives the chain that a rule hands a packet to.
-/

namespace Chains

variable {ρ π : Type}

abbrev Table (ρ : Type) := String → Option (List ρ)

inductive Command (ρ : Type) where
  | new (chain : String)
  | flush (chain : String)
  | check (chain : String) (rule : ρ)
  | insert (chain : String) (rule : ρ)
  | append (chain : String) (rule : ρ)
  deriving DecidableEq, Repr

variable [DecidableEq ρ] (jump : ρ → Option String)

def installable (t : Table ρ) (rule : ρ) : Bool := (jump rule).all fun chain => (t chain).isSome

/-- The failure of a command is `none`, it leaves the table alone. -/
def exec (t : Table ρ) (c : Command ρ) : Option (Table ρ) :=
  match c with
  | .new chain => if (t chain).isSome then none else some (Function.update t chain (some []))
  | .flush chain => if (t chain).isSome then some (Function.update t chain (some [])) else none
  | .check chain rule =>
    match t chain with
    | some rules => if installable jump t rule && rule ∈ rules then some t else none
    | none => none
  | .insert chain rule =>
    match t chain with
    | some rules =>
      if installable jump t rule then some (Function.update t chain (some (rule :: rules))) else none
    | none => none
  | .append chain rule =>
    match t chain with
    | some rules =>
      if installable jump t rule then some (Function.update t chain (some (rules ++ [rule]))) else none
    | none => none

section exec

variable {jump} {t : Table ρ} {chain : String} {rule : ρ} {rules : List ρ}

variable (jump t chain) in
theorem exec_new_cases
    : (exec jump t (.new chain) = none ∧ ∃ rules, t chain = some rules)
        ∨
      exec jump t (.new chain) = some (Function.update t chain (some [])) := by
  unfold exec
  cases h : t chain with
  | none =>
    right
    simp [h]
  | some rules =>
    left
    simp [h]

theorem exec_flush (h : t chain = some rules)
    : exec jump t (.flush chain) = some (Function.update t chain (some [])) := by
  simp [exec, h]

theorem exec_check (h : t chain = some rules) (hjump : installable jump t rule = true)
    : exec jump t (.check chain rule) = if rule ∈ rules then some t else none := by
  simp [exec, h, hjump]

theorem exec_insert (h : t chain = some rules) (hjump : installable jump t rule = true)
    : exec jump t (.insert chain rule) = some (Function.update t chain (some (rule :: rules))) := by
  simp [exec, h, hjump]

theorem exec_append (h : t chain = some rules) (hjump : installable jump t rule = true)
    : exec jump t (.append chain rule) = some (Function.update t chain (some (rules ++ [rule]))) := by
  simp [exec, h, hjump]

end exec

section hook

def hook (rule : ρ) (rules : List ρ) : List ρ := if rule ∈ rules then rules else rule :: rules

theorem mem_hook (rule : ρ) (rules : List ρ) : rule ∈ hook rule rules := by
  unfold hook
  split
  . assumption
  . simp

theorem hook_eq_self {rule : ρ} {rules : List ρ} (h : rule ∈ rules) : hook rule rules = rules := by
  unfold hook
  rw [if_pos h]

theorem hook_hook (rule : ρ) (rules : List ρ) : hook rule (hook rule rules) = hook rule rules := by
  apply hook_eq_self
  apply mem_hook

end hook

section decide

omit [DecidableEq ρ]

variable (applies : ρ → π → Bool)

def decidingRule (rules : List ρ) (p : π) : Option ρ := rules.find? fun r => applies r p

variable {applies} {last : ρ} {p : π}

theorem decidingRule_concat (rules : List ρ) (hlast : applies last p = true)
    : decidingRule applies (rules ++ [last]) p = some last ∧ (∀ r ∈ rules, applies r p = false)
        ∨
      ∃ r ∈ rules, applies r p = true ∧ decidingRule applies (rules ++ [last]) p = some r := by
  unfold decidingRule
  rw [List.find?_append]
  cases h : rules.find? fun r => applies r p with
  | none =>
    left
    simp only [List.find?_eq_none, Bool.not_eq_true] at h
    exact ⟨by simp [hlast], h⟩
  | some r =>
    right
    exact ⟨r, List.mem_of_find?_eq_some h, by simpa using List.find?_some h, by simp⟩

end decide

end Chains
