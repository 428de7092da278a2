import OpenRusty.Server.Init.Exec

/-!
This module contains the theory of the plan: the words of its lines, the rules that `iptables` makes of
them and what the execution of one part of the plan does to the table.
-/

namespace OpenRusty

namespace Init

section words

theorem splitChar_of_toList {sep : Char} {line : String} {parts : List String}
    (h : line.toList = ((String.singleton sep).intercalate parts).toList)
    (hfree : ∀ part ∈ parts, sep ∉ part.toList) (hne : parts ≠ [])
    : splitChar sep line = parts := by
  rw [String.toList_inj.mp h]
  exact splitChar_intercalate hfree hne

theorem space_notMem_toString (n : Nat) : ' ' ∉ (toString n).toList := by
  intro h
  have := isDigit_of_mem_toString h
  revert this
  decide

variable {chain hook : String} (hchain : ' ' ∉ chain.toList) (hhook : ' ' ∉ hook.toList)

include hchain

theorem words_new
    : splitChar ' ' ("iptables -t nat -N " ++ chain) = ["iptables", "-t", "nat", "-N", chain] := by
  apply splitChar_of_toList
  . simp
  . simp [hchain]
  . simp

theorem words_flush
    : splitChar ' ' ("iptables -t nat -F " ++ chain) = ["iptables", "-t", "nat", "-F", chain] := by
  apply splitChar_of_toList
  . simp
  . simp [hchain]
  . simp

include hhook

theorem words_check
    : splitChar ' ' ("iptables -t nat -C " ++ hook ++ " " ++ ("-m comment --comment " ++ comment ++ " -j " ++ chain))
        =
      ["iptables", "-t", "nat", "-C", hook, "-m", "comment", "--comment", comment, "-j", chain] := by
  apply splitChar_of_toList
  . simp
  . simp [hchain, hhook, comment]
  . simp

theorem words_insert
    : splitChar ' ' ("iptables -t nat -I " ++ hook ++ " " ++ ("-m comment --comment " ++ comment ++ " -j " ++ chain))
        =
      ["iptables", "-t", "nat", "-I", hook, "-m", "comment", "--comment", comment, "-j", chain] := by
  apply splitChar_of_toList
  . simp
  . simp [hchain, hhook, comment]
  . simp

end words

open Iptables

def hookRule (chain : String) : Rule := .rule [.comment comment] (.jump chain)

def loopbackIn : Rule := .rule [.protocol "tcp", .inInterface "lo", .comment comment] .return

def loopbackOut : Rule := .rule [.protocol "tcp", .outInterface "lo", .comment comment] .return

def exemptOwner (uid : UInt32) : Rule := .rule [.protocol "tcp", .owner uid, .comment comment] .return

def exemptPort (port : UInt16) : Rule := .rule [.protocol "tcp", .destinationPort port, .comment comment] .return

def exemptSubnet (net : Subnet) : Rule := .rule [.protocol "tcp", .destination net, .comment comment] .return

def redirectAll (port : UInt16) : Rule := .rule [.protocol "tcp", .comment comment] (.redirect port)

structure Appends (chain line : String) (rule : Rule) : Prop where
  words : ∃ words, splitChar ' ' line = "iptables" :: "-t" :: "nat" :: "-A" :: chain :: words
    ∧ Rule.parse words [] = some rule
  no_jump : rule.jump = none

section appends

variable {chain : String} (hchain : ' ' ∉ chain.toList)

include hchain

theorem appends_loopbackIn
    : Appends chain
        ("iptables -t nat -A " ++ chain ++ " -p tcp -i lo -m comment --comment " ++ comment ++ " -j RETURN")
        loopbackIn := by
  refine ⟨⟨["-p", "tcp", "-i", "lo", "-m", "comment", "--comment", comment, "-j", "RETURN"], ?_, rfl⟩, rfl⟩
  apply splitChar_of_toList
  . simp
  . simp [hchain, comment]
  . simp

theorem appends_loopbackOut
    : Appends chain
        ("iptables -t nat -A " ++ chain ++ " -p tcp -o lo -m comment --comment " ++ comment ++ " -j RETURN")
        loopbackOut := by
  refine ⟨⟨["-p", "tcp", "-o", "lo", "-m", "comment", "--comment", comment, "-j", "RETURN"], ?_, rfl⟩, rfl⟩
  apply splitChar_of_toList
  . simp
  . simp [hchain, comment]
  . simp

theorem appends_exemptOwner (uid : UInt32)
    : Appends chain
        ("iptables -t nat -A " ++ chain ++ " -p tcp -m owner --uid-owner " ++ toString uid
          ++ " -m comment --comment " ++ comment ++ " -j RETURN")
        (exemptOwner uid) := by
  refine ⟨⟨["-p", "tcp", "-m", "owner", "--uid-owner", toString uid, "-m", "comment", "--comment", comment,
    "-j", "RETURN"], ?_, ?_⟩, rfl⟩
  . have := space_notMem_toString uid.toNat
    apply splitChar_of_toList
    . simp
    . simp [hchain, comment]
      exact this
    . simp
  . simp [Rule.parse, parseU32_toString, exemptOwner]

theorem appends_exemptPort (port : UInt16)
    : Appends chain
        ("iptables -t nat -A " ++ chain ++ " -p tcp --dport " ++ toString port
          ++ " -m comment --comment " ++ comment ++ " -j RETURN")
        (exemptPort port) := by
  refine ⟨⟨["-p", "tcp", "--dport", toString port, "-m", "comment", "--comment", comment, "-j", "RETURN"],
    ?_, ?_⟩, rfl⟩
  . have := space_notMem_toString port.toNat
    apply splitChar_of_toList
    . simp
    . simp [hchain, comment]
      exact this
    . simp
  . simp [Rule.parse, parseU16_toString, exemptPort]

theorem appends_exemptSubnet {subnet : String} {net : Subnet} (hnet : Subnet.parse subnet = some net)
    (hsubnet : ' ' ∉ subnet.toList)
    : Appends chain
        ("iptables -t nat -A " ++ chain ++ " -p tcp -d " ++ subnet
          ++ " -m comment --comment " ++ comment ++ " -j RETURN")
        (exemptSubnet net) := by
  refine ⟨⟨["-p", "tcp", "-d", subnet, "-m", "comment", "--comment", comment, "-j", "RETURN"], ?_, ?_⟩, rfl⟩
  . apply splitChar_of_toList
    . simp
    . simp [hchain, hsubnet, comment]
    . simp
  . simp [Rule.parse, hnet, exemptSubnet]

theorem appends_redirectAll (port : UInt16)
    : Appends chain
        ("iptables -t nat -A " ++ chain ++ " -p tcp -m comment --comment " ++ comment
          ++ " -j REDIRECT --to-ports " ++ toString port)
        (redirectAll port) := by
  refine ⟨⟨["-p", "tcp", "-m", "comment", "--comment", comment, "-j", "REDIRECT", "--to-ports",
    toString port], ?_, ?_⟩, rfl⟩
  . have := space_notMem_toString port.toNat
    apply splitChar_of_toList
    . simp
    . simp [hchain, comment]
      exact this
    . simp
  . simp [Rule.parse, parseU16_toString, redirectAll]

end appends

theorem installable_of_no_jump {rule : Rule} (h : rule.jump = none) (t : Table)
    : Chains.installable Rule.jump t rule = true := by
  simp [Chains.installable, h]

section execRule

variable {s : PlanRun} {chain line : String} {rules : List Rule} {rule : Rule}

theorem execRule_appends (h : Appends chain line rule) (hskip : s.skipInsert = false)
    (ht : s.table chain = some rules)
    : execRule s line = .ok {
        executed := s.executed + 1
        appended := s.appended + 1
        skipInsert := false
        table := Function.update s.table chain (some (rules ++ [rule]))
      } := by
  rcases h.words with ⟨words, hwords, hparse⟩
  have hexec : Iptables.exec ("-t" :: "nat" :: "-A" :: chain :: words) s.table
      = some (Function.update s.table chain (some (rules ++ [rule]))) := by
    rw [Iptables.exec_append chain s.table hparse]
    exact Chains.exec_append ht (installable_of_no_jump h.no_jump s.table)
  rw [execRule_changes hwords (by decide) hskip hexec]
  rfl

theorem foldlM_appends {lines : List String} {added : List Rule} (h : List.Forall₂ (Appends chain) lines added)
    {s : PlanRun} {rules : List Rule} (hskip : s.skipInsert = false) (ht : s.table chain = some rules)
    : lines.foldlM execRule s = .ok {
        executed := s.executed + added.length
        appended := s.appended + added.length
        skipInsert := false
        table := Function.update s.table chain (some (rules ++ added))
      } := by
  induction h generalizing s rules with
  | nil =>
    have hupdate : Function.update s.table chain (some rules) = s.table := by
      rw [← ht, Function.update_eq_self]
    rcases s with ⟨executed, appended, skipInsert, table⟩
    cases hskip
    simp [hupdate]
    rfl
  | cons hline _ ih =>
    rw [List.foldlM_cons, execRule_appends hline hskip ht]
    simp only [bind, Except.bind]
    rw [ih rfl (Function.update_self _ _ _)]
    simp [Nat.add_assoc, Nat.add_comm 1]

end execRule

section chainSetup

variable {chain hook : String} {s : PlanRun}

theorem execRule_new (hchain : ' ' ∉ chain.toList) (hskip : s.skipInsert = false)
    : ∃ t, execRule s ("iptables -t nat -N " ++ chain) = .ok {
          executed := s.executed + 1
          appended := s.appended
          skipInsert := false
          table := t
        }
      ∧ (t chain).isSome ∧ ∀ rules, Function.update t chain rules = Function.update s.table chain rules := by
  have hexec := Iptables.exec_new chain s.table
  rcases Chains.exec_new_cases Rule.jump s.table chain with ⟨hnone, rules, hrules⟩ | hsome
  . refine ⟨s.table, ?_, by rw [hrules]; rfl, fun _ => rfl⟩
    exact execRule_new_fails (words_new hchain) (hexec.trans hnone)
  . refine ⟨Function.update s.table chain (some []), ?_, by simp, ?_⟩
    . exact execRule_changes (words_new hchain) (by decide) hskip (hexec.trans hsome)
    . intro rules
      apply Function.update_idem

theorem execRule_flush (hchain : ' ' ∉ chain.toList) (hskip : s.skipInsert = false)
    (ht : (s.table chain).isSome)
    : execRule s ("iptables -t nat -F " ++ chain) = .ok {
        executed := s.executed + 1
        appended := s.appended
        skipInsert := false
        table := Function.update s.table chain (some [])
      } := by
  rcases Option.isSome_iff_exists.mp ht with ⟨rules, hrules⟩
  have hexec : Iptables.exec ["-t", "nat", "-F", chain] s.table
      = some (Function.update s.table chain (some [])) := by
    rw [Iptables.exec_flush, Chains.exec_flush hrules]
  exact execRule_changes (words_flush hchain) (by decide) hskip hexec

section hook

variable (hchain : ' ' ∉ chain.toList) (hhook : ' ' ∉ hook.toList)
  (hparse : Rule.parse ["-m", "comment", "--comment", comment, "-j", chain] [] = some (hookRule chain))
  {rules : List Rule} (hrules : s.table hook = some rules) (ht : (s.table chain).isSome)

include hchain hhook

theorem execRule_insert_skipped (hskip : s.skipInsert = true)
    : execRule s
        ("iptables -t nat -I " ++ hook ++ " " ++ ("-m comment --comment " ++ comment ++ " -j " ++ chain))
        =
      .ok { s with skipInsert := false, executed := s.executed + 1 } :=
  execRule_skipped (words_insert hchain hhook) hskip

include hparse hrules ht

theorem execRule_check
    : execRule s
        ("iptables -t nat -C " ++ hook ++ " " ++ ("-m comment --comment " ++ comment ++ " -j " ++ chain))
        =
      .ok { s with skipInsert := decide (hookRule chain ∈ rules), executed := s.executed + 1 } := by
  have hjump : Chains.installable Rule.jump s.table (hookRule chain) = true := by
    simpa [Chains.installable, Rule.jump, hookRule] using ht
  have hexec : Iptables.exec ["-t", "nat", "-C", hook, "-m", "comment", "--comment", comment, "-j", chain] s.table
      = if hookRule chain ∈ rules then some s.table else none := by
    rw [Iptables.exec_check hook s.table hparse]
    exact Chains.exec_check hrules hjump
  by_cases hmem : hookRule chain ∈ rules
  . rw [if_pos hmem] at hexec
    rw [execRule_check_holds (words_check hchain hhook) hexec]
    simp [hmem]
  . rw [if_neg hmem] at hexec
    rw [execRule_check_fails (words_check hchain hhook) hexec]
    simp [hmem]

theorem execRule_insert (hskip : s.skipInsert = false)
    : execRule s
        ("iptables -t nat -I " ++ hook ++ " " ++ ("-m comment --comment " ++ comment ++ " -j " ++ chain))
        =
      .ok {
        executed := s.executed + 1
        appended := s.appended
        skipInsert := false
        table := Function.update s.table hook (some (hookRule chain :: rules))
      } := by
  have hjump : Chains.installable Rule.jump s.table (hookRule chain) = true := by
    simpa [Chains.installable, Rule.jump, hookRule] using ht
  have hexec : Iptables.exec ["-t", "nat", "-I", hook, "-m", "comment", "--comment", comment, "-j", chain] s.table
      = some (Function.update s.table hook (some (hookRule chain :: rules))) := by
    rw [Iptables.exec_insert hook s.table hparse]
    exact Chains.exec_insert hrules hjump
  exact execRule_changes (words_insert hchain hhook) (by decide) hskip hexec

end hook

theorem foldlM_chainSetup (hchain : ' ' ∉ chain.toList) (hhook : ' ' ∉ hook.toList)
    (hparse : Rule.parse ["-m", "comment", "--comment", comment, "-j", chain] [] = some (hookRule chain))
    (hne : hook ≠ chain) {rules : List Rule} (hrules : s.table hook = some rules)
    (hskip : s.skipInsert = false)
    : (chainSetup chain hook).foldlM execRule s = .ok {
        executed := s.executed + 4
        appended := s.appended
        skipInsert := false
        table := Function.update (Function.update s.table chain (some [])) hook
          (some (Chains.hook (hookRule chain) rules))
      } := by
  rcases execRule_new hchain hskip with ⟨t, hnew, hthere, hsame⟩
  have hhooked : Function.update s.table chain (some []) hook = some rules := by
    rw [Function.update_of_ne hne, hrules]
  have hcreated : (Function.update s.table chain (some []) chain).isSome := by simp
  unfold chainSetup
  rw [List.foldlM_cons, hnew]
  simp only [bind, Except.bind]
  rw [List.foldlM_cons, execRule_flush hchain rfl hthere]
  simp only [bind, Except.bind]
  rw [List.foldlM_cons, hsame, execRule_check hchain hhook hparse hhooked hcreated]
  simp only [bind, Except.bind]
  rw [List.foldlM_cons]
  by_cases hmem : hookRule chain ∈ rules
  . rw [execRule_insert_skipped hchain hhook (by simp [hmem])]
    rw [Chains.hook_eq_self hmem, ← hhooked, Function.update_eq_self]
    rfl
  . rw [execRule_insert hchain hhook hparse hhooked hcreated (by simp [hmem])]
    unfold Chains.hook
    rw [if_neg hmem]
    rfl

end chainSetup

end Init

end OpenRusty
