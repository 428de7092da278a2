import OpenRusty.Server.Init.Basic
import OpenRusty.Server.Init.Iptables

/-!
This module contains the execution of a plan (`init/exec.rs`): a chain that is there already is not
created, and a guard that succeeds skips the insert behind it.
-/

namespace OpenRusty

namespace Init

structure PlanRun where
  executed : Nat
  appended : Nat
  skipInsert : Bool
  table : Iptables.Table

structure PlanError where
  rule : String
  executed : Nat
  table : Iptables.Table

def execRule (s : PlanRun) (rule : String) : Except PlanError PlanRun :=
  let words := splitChar ' ' rule
  let op := words[3]?.getD ""
  if s.skipInsert && op == "-I" then
    .ok { s with skipInsert := false, executed := s.executed + 1 }
  else
    let s := { s with skipInsert := false }
    match op, Iptables.exec (words.drop 1) s.table with
    | "-N", none => .ok { s with executed := s.executed + 1 }
    | "-C", some table => .ok { s with executed := s.executed + 1, skipInsert := true, table := table }
    | "-C", none => .ok { s with executed := s.executed + 1 }
    | op, some table =>
      .ok { s with
        executed := s.executed + 1
        appended := if op == "-A" then s.appended + 1 else s.appended
        table := table }
    | _, none => .error { rule := rule, executed := s.executed, table := s.table }

section execRule

variable {s : PlanRun} {rule op : String} {args : List String}

theorem execRule_skipped (hwords : splitChar ' ' rule = "iptables" :: "-t" :: "nat" :: "-I" :: args)
    (hskip : s.skipInsert = true)
    : execRule s rule = .ok { s with skipInsert := false, executed := s.executed + 1 } := by
  unfold execRule
  rw [hwords]
  simp [hskip]

theorem execRule_new_fails (hwords : splitChar ' ' rule = "iptables" :: "-t" :: "nat" :: "-N" :: args)
    (hexec : Iptables.exec ("-t" :: "nat" :: "-N" :: args) s.table = none)
    : execRule s rule = .ok { s with skipInsert := false, executed := s.executed + 1 } := by
  unfold execRule
  rw [hwords]
  simp [hexec]

theorem execRule_check_fails (hwords : splitChar ' ' rule = "iptables" :: "-t" :: "nat" :: "-C" :: args)
    (hexec : Iptables.exec ("-t" :: "nat" :: "-C" :: args) s.table = none)
    : execRule s rule = .ok { s with skipInsert := false, executed := s.executed + 1 } := by
  unfold execRule
  rw [hwords]
  simp [hexec]

variable {table : Iptables.Table}

theorem execRule_check_holds (hwords : splitChar ' ' rule = "iptables" :: "-t" :: "nat" :: "-C" :: args)
    (hexec : Iptables.exec ("-t" :: "nat" :: "-C" :: args) s.table = some table)
    : execRule s rule = .ok { s with executed := s.executed + 1, skipInsert := true, table := table } := by
  unfold execRule
  rw [hwords]
  simp [hexec]

theorem execRule_changes (hwords : splitChar ' ' rule = "iptables" :: "-t" :: "nat" :: op :: args)
    (hop : op ≠ "-C") (hskip : s.skipInsert = false)
    (hexec : Iptables.exec ("-t" :: "nat" :: op :: args) s.table = some table)
    : execRule s rule = .ok {
        executed := s.executed + 1
        appended := if op == "-A" then s.appended + 1 else s.appended
        skipInsert := false
        table := table
      } := by
  unfold execRule
  rw [hwords]
  simp [hskip, hexec]

end execRule

def execPlan (rules : List String) (t : Iptables.Table) : Except PlanError PlanRun :=
  rules.foldlM execRule { executed := 0, appended := 0, skipInsert := false, table := t }

end Init

end OpenRusty
