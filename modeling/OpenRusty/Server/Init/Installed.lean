import OpenRusty.Server.Init.Lemmas
import Mathlib.Data.List.Forall2

/-!
This module contains the table that the plan leaves, whatever table it starts from: both chains hold
exactly their rules, and nothing else changes but the hooks.
-/

namespace OpenRusty

namespace Init

open Iptables

variable (p : InitParams)

def skipNets : List Subnet := p.skipSubnets.filterMap Subnet.parse

def inboundExempt : List Rule := loopbackIn :: p.ignoreInboundPorts.map exemptPort

def outboundExempt : List Rule :=
  loopbackOut :: exemptOwner p.proxyUid :: (p.ignoreOutboundPorts.map exemptPort ++ (skipNets p).map exemptSubnet)

def installed (t : Table) : Table :=
  fun chain =>
    if chain = chainIn then
      some (inboundExempt p ++ [redirectAll p.inboundPort])
    else if chain = chainOut then
      some (outboundExempt p ++ [redirectAll p.outboundPort])
    else if chain = "PREROUTING" then
      (t chain).map (Chains.hook (hookRule chainIn))
    else if chain = "OUTPUT" then
      (t chain).map (Chains.hook (hookRule chainOut))
    else
      t chain

theorem installed_installed (t : Table) : installed p (installed p t) = installed p t := by
  funext chain
  unfold installed
  by_cases hin : chain = chainIn
  . simp [hin]
  . by_cases hout : chain = chainOut
    . simp [hout]
    . by_cases hpre : chain = "PREROUTING"
      . subst hpre
        cases t "PREROUTING" <;> simp [hin, hout, Chains.hook_hook]
      . by_cases hoc : chain = "OUTPUT"
        . subst hoc
          cases t "OUTPUT" <;> simp [hin, hout, Chains.hook_hook]
        . simp [hin, hout, hpre, hoc]

section appends

variable {p}

theorem ports_appends {chain : String} (hchain : ' ' ∉ chain.toList) (ports : List UInt16)
    : List.Forall₂ (Appends chain)
        (ports.map fun port => "iptables -t nat -A " ++ chain ++ " -p tcp --dport " ++ toString port
          ++ " -m comment --comment " ++ comment ++ " -j RETURN")
        (ports.map exemptPort) := by
  rw [List.forall₂_map_left_iff, List.forall₂_map_right_iff]
  exact List.forall₂_same.mpr fun port _ => appends_exemptPort hchain port

theorem subnets_appends {chain : String} (hchain : ' ' ∉ chain.toList) {subnets : List String}
    (h : ∀ cidr ∈ subnets, (∃ net, Subnet.parse cidr = some net) ∧ ' ' ∉ cidr.toList)
    : List.Forall₂ (Appends chain)
        (subnets.map fun subnet => "iptables -t nat -A " ++ chain ++ " -p tcp -d " ++ subnet
          ++ " -m comment --comment " ++ comment ++ " -j RETURN")
        ((subnets.filterMap Subnet.parse).map exemptSubnet) := by
  induction subnets with
  | nil => exact List.Forall₂.nil
  | cons cidr subnets ih =>
    rcases h cidr (by simp) with ⟨⟨net, hnet⟩, hfree⟩
    rw [List.filterMap_cons_some hnet, List.map_cons, List.map_cons]
    apply List.Forall₂.cons
    . exact appends_exemptSubnet hchain hnet hfree
    . apply ih
      intro cidr' hcidr'
      apply h
      simp [hcidr']

variable (p) in
theorem inboundRules_appends
    : List.Forall₂ (Appends chainIn) (inboundRules p) (inboundExempt p ++ [redirectAll p.inboundPort]) := by
  have hchain : ' ' ∉ chainIn.toList := by decide
  unfold inboundRules inboundExempt
  simp only [List.cons_append, List.nil_append]
  apply List.Forall₂.cons (appends_loopbackIn hchain)
  apply List.rel_append (ports_appends hchain p.ignoreInboundPorts)
  exact List.Forall₂.cons (appends_redirectAll hchain p.inboundPort) List.Forall₂.nil

theorem outboundRules_appends
    (h : ∀ cidr ∈ p.skipSubnets, (∃ net, Subnet.parse cidr = some net) ∧ ' ' ∉ cidr.toList)
    : List.Forall₂ (Appends chainOut) (outboundRules p) (outboundExempt p ++ [redirectAll p.outboundPort]) := by
  have hchain : ' ' ∉ chainOut.toList := by decide
  unfold outboundRules outboundExempt skipNets
  simp only [List.cons_append, List.nil_append, List.append_assoc]
  apply List.Forall₂.cons (appends_loopbackOut hchain)
  apply List.Forall₂.cons (appends_exemptOwner hchain p.proxyUid)
  apply List.rel_append (ports_appends hchain p.ignoreOutboundPorts)
  apply List.rel_append (subnets_appends hchain h)
  exact List.Forall₂.cons (appends_redirectAll hchain p.outboundPort) List.Forall₂.nil

end appends

theorem update_installed {t : Table} {pre out : List Rule} (hpre : t "PREROUTING" = some pre)
    (hout : t "OUTPUT" = some out)
    : Function.update
        (Function.update
          (Function.update
            (Function.update
              (Function.update (Function.update t chainIn (some [])) "PREROUTING"
                (some (Chains.hook (hookRule chainIn) pre)))
              chainIn (some (inboundExempt p ++ [redirectAll p.inboundPort])))
            chainOut (some []))
          "OUTPUT" (some (Chains.hook (hookRule chainOut) out)))
        chainOut (some (outboundExempt p ++ [redirectAll p.outboundPort]))
        =
      installed p t := by
  funext chain
  unfold installed
  by_cases hin : chain = chainIn
  . subst hin
    simp [chainIn, chainOut, Function.update]
  . by_cases hco : chain = chainOut
    . subst hco
      simp [hin]
    . by_cases hp : chain = "PREROUTING"
      . subst hp
        simp [hin, hco, hpre]
      . by_cases ho : chain = "OUTPUT"
        . subst ho
          simp [hin, hco, hout]
        . simp [hin, hco, hp, ho]

theorem execPlan_ok (h : ∀ cidr ∈ p.skipSubnets, (∃ net, Subnet.parse cidr = some net) ∧ ' ' ∉ cidr.toList)
    {t : Table} (hpre : (t "PREROUTING").isSome) (hout : (t "OUTPUT").isSome)
    : ∃ s, execPlan (buildRules p) t = .ok s ∧ s.table = installed p t := by
  rcases Option.isSome_iff_exists.mp hpre with ⟨pre, hpre⟩
  rcases Option.isSome_iff_exists.mp hout with ⟨out, hout⟩
  unfold execPlan buildRules
  rw [List.foldlM_append, List.foldlM_append, List.foldlM_append]
  rw [foldlM_chainSetup (by decide) (by decide) rfl (by decide) hpre rfl]
  simp only [bind, Except.bind]
  rw [foldlM_appends (inboundRules_appends p) rfl (show _ = some [] by simp [chainIn, Function.update])]
  dsimp only
  rw [foldlM_chainSetup (by decide) (by decide) rfl (by decide)
    (show _ = some out by simp [chainIn, Function.update, hout]) rfl]
  dsimp only
  rw [foldlM_appends (outboundRules_appends h) rfl (show _ = some [] by simp [chainOut, Function.update])]
  refine ⟨_, rfl, ?_⟩
  exact update_installed p hpre hout

variable {p} in
theorem installed_frame {t : Table} {chain : String} (hin : chain ≠ chainIn) (hout : chain ≠ chainOut)
    : installed p t chain = t chain
        ∨
      (chain = "PREROUTING" ∧ ∃ rules, t chain = some rules
        ∧ installed p t chain = some (hookRule chainIn :: rules))
        ∨
      (chain = "OUTPUT" ∧ ∃ rules, t chain = some rules
        ∧ installed p t chain = some (hookRule chainOut :: rules)) := by
  have hhook : ∀ (rule : Rule) rules, Chains.hook rule rules = rules ∨ Chains.hook rule rules = rule :: rules := by
    intro rule rules
    unfold Chains.hook
    split <;> simp
  unfold installed
  rw [if_neg hin, if_neg hout]
  split
  . next hpre =>
    cases ht : t chain with
    | none => simp
    | some rules =>
      rcases hhook (hookRule chainIn) rules with h | h
      . simp [h]
      . simp [h, hpre]
  . split
    . next hoc =>
      cases ht : t chain with
      | none => simp
      | some rules =>
        rcases hhook (hookRule chainOut) rules with h | h
        . simp [h]
        . simp [h, hoc]
    . simp

end Init

end OpenRusty
