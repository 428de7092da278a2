import OpenRusty.Server.Init.Accepted
import OpenRusty.Server.Init.Installed

/-!
This module contains what a run of the plan is for: it always succeeds, a second run changes nothing, and
a TCP packet is redirected unless one of the exemptions applies to it.
-/

namespace OpenRusty

namespace Init

open Iptables

variable (p : InitParams)

section redirect

variable (foreign : String → Packet → Bool)

def redirectPort (t : Table) (chain : String) (packet : Packet) : Option UInt16 :=
  match (t chain).bind fun rules => Chains.decidingRule (Rule.applies foreign) rules packet with
  | some (.rule _ (.redirect port)) => some port
  | _ => none

def Returns (r : Rule) : Prop := ∃ conditions, r = .rule conditions .return

theorem redirectPort_iff {t : Table} {chain : String} {exempt : List Rule} {last port : UInt16} {packet : Packet}
    (ht : t chain = some (exempt ++ [redirectAll last])) (hexempt : ∀ r ∈ exempt, Returns r)
    (htcp : packet.protocol = "tcp")
    : redirectPort foreign t chain packet = some port
        ↔
      port = last ∧ ∀ r ∈ exempt, r.applies foreign packet = false := by
  have hlast : (redirectAll last).applies foreign packet = true := by
    simp [redirectAll, Rule.applies, Match.holds, htcp]
  unfold redirectPort
  rw [ht, Option.bind_some]
  rcases Chains.decidingRule_concat exempt hlast with ⟨hdecides, hnone⟩ | ⟨r, hr, happlies, hdecides⟩
  . rw [hdecides]
    constructor
    . intro h
      cases h
      exact ⟨rfl, hnone⟩
    . rintro ⟨rfl, -⟩
      rfl
  . rcases hexempt r hr with ⟨conditions, rfl⟩
    rw [hdecides]
    constructor
    . intro h
      cases h
    . intro h
      rw [h.2 _ hr] at happlies
      cases happlies

variable {p}

theorem inboundExempt_returns : ∀ r ∈ inboundExempt p, Returns r := by
  intro r hr
  simp only [inboundExempt, List.mem_cons, List.mem_map] at hr
  rcases hr with rfl | ⟨port, -, rfl⟩
  . exact ⟨_, rfl⟩
  . exact ⟨_, rfl⟩

theorem outboundExempt_returns : ∀ r ∈ outboundExempt p, Returns r := by
  intro r hr
  simp only [outboundExempt, List.mem_cons, List.mem_append, List.mem_map] at hr
  rcases hr with rfl | rfl | ⟨port, -, rfl⟩ | ⟨net, -, rfl⟩
  . exact ⟨_, rfl⟩
  . exact ⟨_, rfl⟩
  . exact ⟨_, rfl⟩
  . exact ⟨_, rfl⟩

variable {packet : Packet} (htcp : packet.protocol = "tcp")

include htcp

theorem loopbackIn_applies
    : loopbackIn.applies foreign packet = false ↔ packet.inInterface ≠ some "lo" := by
  simp [loopbackIn, Rule.applies, Match.holds, htcp]

theorem loopbackOut_applies
    : loopbackOut.applies foreign packet = false ↔ packet.outInterface ≠ some "lo" := by
  simp [loopbackOut, Rule.applies, Match.holds, htcp]

theorem exemptOwner_applies (uid : UInt32)
    : (exemptOwner uid).applies foreign packet = false ↔ packet.owner ≠ some uid := by
  simp [exemptOwner, Rule.applies, Match.holds, htcp]

theorem exemptPort_applies (port : UInt16)
    : (exemptPort port).applies foreign packet = false ↔ packet.destinationPort ≠ port := by
  simp [exemptPort, Rule.applies, Match.holds, htcp]

theorem exemptSubnet_applies (net : Subnet)
    : (exemptSubnet net).applies foreign packet = false ↔ net.contains packet.destination = false := by
  simp [exemptSubnet, Rule.applies, Match.holds, htcp]

theorem exemptPorts_apply (ports : List UInt16)
    : (∀ r ∈ ports.map exemptPort, r.applies foreign packet = false) ↔ packet.destinationPort ∉ ports := by
  simp only [List.forall_mem_map, exemptPort_applies foreign htcp]
  constructor
  . intro h hmem
    exact h _ hmem rfl
  . rintro h port hport rfl
    exact h hport

theorem inboundExempt_iff
    : (∀ r ∈ inboundExempt p, r.applies foreign packet = false)
        ↔
      packet.inInterface ≠ some "lo" ∧ packet.destinationPort ∉ p.ignoreInboundPorts := by
  unfold inboundExempt
  rw [List.forall_mem_cons, loopbackIn_applies foreign htcp, exemptPorts_apply foreign htcp]

theorem outboundExempt_iff
    : (∀ r ∈ outboundExempt p, r.applies foreign packet = false)
        ↔
      packet.outInterface ≠ some "lo" ∧ packet.owner ≠ some p.proxyUid
        ∧ packet.destinationPort ∉ p.ignoreOutboundPorts
        ∧ ∀ cidr ∈ p.skipSubnets, ∀ net, Subnet.parse cidr = some net → net.contains packet.destination = false := by
  unfold outboundExempt skipNets
  rw [List.forall_mem_cons, List.forall_mem_cons, List.forall_mem_append, loopbackOut_applies foreign htcp,
    exemptOwner_applies foreign htcp, exemptPorts_apply foreign htcp, List.forall_mem_map]
  simp only [exemptSubnet_applies foreign htcp, List.mem_filterMap, forall_exists_index, and_imp]
  have hswap : (∀ net cidr, cidr ∈ p.skipSubnets → Subnet.parse cidr = some net → net.contains packet.destination = false)
      ↔ ∀ cidr ∈ p.skipSubnets, ∀ net, Subnet.parse cidr = some net → net.contains packet.destination = false := by
    constructor
    . intro h cidr hcidr net hnet
      exact h net cidr hcidr hnet
    . intro h net cidr hcidr hnet
      exact h cidr hcidr net hnet
  rw [hswap]

end redirect

section installed

variable {p} {t : Table} {packet : Packet} (foreign : String → Packet → Bool)

theorem redirectPort_inbound (htcp : packet.protocol = "tcp") (port : UInt16)
    : redirectPort foreign (installed p t) chainIn packet = some port
        ↔
      port = p.inboundPort ∧ packet.inInterface ≠ some "lo" ∧ packet.destinationPort ∉ p.ignoreInboundPorts := by
  have ht : installed p t chainIn = some (inboundExempt p ++ [redirectAll p.inboundPort]) := by
    simp [installed]
  rw [redirectPort_iff foreign ht inboundExempt_returns htcp, inboundExempt_iff foreign htcp]

theorem redirectPort_outbound (htcp : packet.protocol = "tcp") (port : UInt16)
    : redirectPort foreign (installed p t) chainOut packet = some port
        ↔
      port = p.outboundPort ∧ packet.outInterface ≠ some "lo" ∧ packet.owner ≠ some p.proxyUid
        ∧ packet.destinationPort ∉ p.ignoreOutboundPorts
        ∧ ∀ cidr ∈ p.skipSubnets, ∀ net, Subnet.parse cidr = some net → net.contains packet.destination = false := by
  have hne : chainOut ≠ chainIn := by decide
  have ht : installed p t chainOut = some (outboundExempt p ++ [redirectAll p.outboundPort]) := by
    simp [installed, hne]
  rw [redirectPort_iff foreign ht outboundExempt_returns htcp, outboundExempt_iff foreign htcp]

end installed

theorem execPlan_correct {argv : List String} {p : InitParams} (hparse : parseArgs argv = .ok p)
    (hv4 : ∀ cidr ∈ p.skipSubnets, isIpv4Subnet cidr = true) {t : Table} (hpre : (t "PREROUTING").isSome)
    (hout : (t "OUTPUT").isSome)
    : ∃ s, execPlan (buildRules p) t = .ok s
        ∧ (∃ s', execPlan (buildRules p) s.table = .ok s' ∧ s'.table = s.table)
        ∧ (∀ chain, chain ≠ chainIn → chain ≠ chainOut →
            s.table chain = t chain
              ∨ (chain = "PREROUTING" ∧ ∃ rules, t chain = some rules
                  ∧ s.table chain = some (hookRule chainIn :: rules))
              ∨ (chain = "OUTPUT" ∧ ∃ rules, t chain = some rules
                  ∧ s.table chain = some (hookRule chainOut :: rules)))
        ∧ ∀ (foreign : String → Packet → Bool) (packet : Packet), packet.protocol = "tcp" →
            (∀ port, redirectPort foreign s.table chainOut packet = some port
                ↔
              port = p.outboundPort ∧ packet.outInterface ≠ some "lo" ∧ packet.owner ≠ some p.proxyUid
                ∧ packet.destinationPort ∉ p.ignoreOutboundPorts
                ∧ ∀ cidr ∈ p.skipSubnets, ∀ net, Subnet.parse cidr = some net →
                    net.contains packet.destination = false)
              ∧
            ∀ port, redirectPort foreign s.table chainIn packet = some port
                ↔
              port = p.inboundPort ∧ packet.inInterface ≠ some "lo"
                ∧ packet.destinationPort ∉ p.ignoreInboundPorts := by
  have hsubnets : ∀ cidr ∈ p.skipSubnets, (∃ net, Subnet.parse cidr = some net) ∧ ' ' ∉ cidr.toList := by
    intro cidr hcidr
    exact parse_of_parseSubnet (parseArgs_subnets hparse cidr hcidr) (hv4 cidr hcidr)
  rcases execPlan_ok p hsubnets hpre hout with ⟨s, hs, htable⟩
  refine ⟨s, hs, ?_, ?_, ?_⟩
  . have hpre' : (s.table "PREROUTING").isSome := by
      rw [htable]
      simpa [installed, chainIn, chainOut] using hpre
    have hout' : (s.table "OUTPUT").isSome := by
      rw [htable]
      simpa [installed, chainIn, chainOut] using hout
    rcases execPlan_ok p hsubnets hpre' hout' with ⟨s', hs', htable'⟩
    refine ⟨s', hs', ?_⟩
    rw [htable', htable, installed_installed]
  . intro chain hin hco
    rw [htable]
    exact installed_frame hin hco
  . intro foreign packet htcp
    rw [htable]
    exact ⟨redirectPort_outbound foreign htcp, redirectPort_inbound foreign htcp⟩

def leftovers : Table :=
  fun chain =>
    match chain with
    | "PREROUTING" => some [hookRule chainIn, .foreign "-p tcp --dport 80 -j DNAT --to 10.1.2.3"]
    | "OUTPUT" => some []
    | "POSTROUTING" => some [.foreign "-o eth0 -j MASQUERADE"]
    | "OPENRUSTY_IN" => some [loopbackIn, exemptPort 22]
    | _ => none

theorem execPlan_correct_leftovers
    : ∃ s, execPlan (buildRules {
          proxyUid := 2102
          ignoreOutboundPorts := [443, 53]
          skipSubnets := ["10.0.0.0/8"]
        }) leftovers = .ok s
      ∧ s.table "POSTROUTING" = leftovers "POSTROUTING" := by
  have hparse : parseArgs
      ["--proxy-uid", "2102", "--skip-subnets=10.0.0.0/8", "--ignore-outbound-ports", "443,53"]
        = .ok { proxyUid := 2102, ignoreOutboundPorts := [443, 53], skipSubnets := ["10.0.0.0/8"] } := by
    rfl
  have hv4 : ∀ cidr ∈ ["10.0.0.0/8"], isIpv4Subnet cidr = true := by decide +kernel
  rcases execPlan_correct hparse hv4 (t := leftovers) rfl rfl with ⟨s, hs, -, hframe, -⟩
  refine ⟨s, hs, ?_⟩
  rcases hframe "POSTROUTING" (by decide) (by decide) with h | ⟨h, -⟩ | ⟨h, -⟩
  . exact h
  . exact absurd h (by decide)
  . exact absurd h (by decide)

end Init

end OpenRusty
