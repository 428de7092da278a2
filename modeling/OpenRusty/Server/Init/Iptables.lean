import OpenRusty.Core.Net
import OpenRusty.Lib.Chains

/-!
This module contains the meaning of the commands that `iptables-init` runs: the rules of the nat table of
IPv4 as far as its own rules use them, the command line of `iptables` and the packets that a rule applies
to. A rule of anybody else is kept as it is.
-/

namespace OpenRusty

structure Subnet where
  addr : BitVec 32
  bits : Nat
  deriving DecidableEq, Repr

namespace Subnet

def contains (net : Subnet) (addr : BitVec 32) : Bool :=
  net.addr >>> (32 - net.bits) == addr >>> (32 - net.bits)

def parse (cidr : String) : Option Subnet :=
  match splitOnce '/' cidr with
  | some (addr, mask) =>
    match IpAddr.parse addr, parseU32 mask with
    | some (.v4 addr), some bits => if bits.toNat ≤ 32 then some { addr := addr, bits := bits.toNat } else none
    | _, _ => none
  | none =>
    match IpAddr.parse cidr with
    | some (.v4 addr) => some { addr := addr, bits := 32 }
    | _ => none

end Subnet

structure Packet where
  protocol : String
  -- The interface it arrives by and the one it leaves by.
  inInterface : Option String
  outInterface : Option String
  destination : BitVec 32
  destinationPort : UInt16
  -- The user of the local socket that it comes from.
  owner : Option UInt32

namespace Iptables

inductive Match where
  | protocol (name : String)
  | inInterface (name : String)
  | outInterface (name : String)
  | destination (net : Subnet)
  | destinationPort (port : UInt16)
  | owner (uid : UInt32)
  | comment (text : String)
  deriving DecidableEq, Repr

inductive Target where
  | return
  | redirect (port : UInt16)
  | jump (chain : String)
  deriving DecidableEq, Repr

inductive Rule where
  | rule (conditions : List Match) (target : Target)
  | foreign (line : String)
  deriving DecidableEq, Repr

abbrev Table := Chains.Table Rule

namespace Match

def holds (m : Match) (p : Packet) : Bool :=
  match m with
  | .protocol name => p.protocol == name
  | .inInterface name => p.inInterface == some name
  | .outInterface name => p.outInterface == some name
  | .destination net => net.contains p.destination
  | .destinationPort port => p.destinationPort == port
  | .owner uid => p.owner == some uid
  | .comment _ => true

end Match

namespace Rule

def applies (foreign : String → Packet → Bool) (r : Rule) (p : Packet) : Bool :=
  match r with
  | .rule conditions _ => conditions.all fun m => m.holds p
  | .foreign line => foreign line p

def jump (r : Rule) : Option String :=
  match r with
  | .rule _ (.jump chain) => some chain
  | _ => none

def parse (words : List String) (conditions : List Match) : Option Rule :=
  match words with
  | ["-j", "RETURN"] => some (.rule conditions .return)
  | ["-j", "REDIRECT", "--to-ports", port] =>
    (parseU16 port).map fun port => .rule conditions (.redirect port)
  | ["-j", chain] => some (.rule conditions (.jump chain))
  | "-p" :: name :: words => parse words (conditions ++ [.protocol name])
  | "-i" :: name :: words => parse words (conditions ++ [.inInterface name])
  | "-o" :: name :: words => parse words (conditions ++ [.outInterface name])
  | "-d" :: cidr :: words =>
    match Subnet.parse cidr with
    | some net => parse words (conditions ++ [.destination net])
    | none => none
  | "--dport" :: port :: words =>
    match parseU16 port with
    | some port => parse words (conditions ++ [.destinationPort port])
    | none => none
  | "-m" :: "owner" :: "--uid-owner" :: uid :: words =>
    match parseU32 uid with
    | some uid => parse words (conditions ++ [.owner uid])
    | none => none
  | "-m" :: "comment" :: "--comment" :: text :: words => parse words (conditions ++ [.comment text])
  | _ => none

end Rule

def parseCommand (args : List String) : Option (Chains.Command Rule) :=
  match args with
  | ["-t", "nat", "-N", chain] => some (.new chain)
  | ["-t", "nat", "-F", chain] => some (.flush chain)
  | "-t" :: "nat" :: "-C" :: chain :: words => (Rule.parse words []).map fun r => .check chain r
  | "-t" :: "nat" :: "-I" :: chain :: words => (Rule.parse words []).map fun r => .insert chain r
  | "-t" :: "nat" :: "-A" :: chain :: words => (Rule.parse words []).map fun r => .append chain r
  | _ => none

def exec (args : List String) (t : Table) : Option Table :=
  (parseCommand args).bind fun c => Chains.exec Rule.jump t c

section exec

variable (chain : String) (t : Table)

theorem exec_new : exec ["-t", "nat", "-N", chain] t = Chains.exec Rule.jump t (.new chain) := rfl

theorem exec_flush : exec ["-t", "nat", "-F", chain] t = Chains.exec Rule.jump t (.flush chain) := rfl

variable {words : List String} {rule : Rule} (h : Rule.parse words [] = some rule)

include h

theorem exec_check
    : exec ("-t" :: "nat" :: "-C" :: chain :: words) t = Chains.exec Rule.jump t (.check chain rule) := by
  simp [exec, parseCommand, h]

theorem exec_insert
    : exec ("-t" :: "nat" :: "-I" :: chain :: words) t = Chains.exec Rule.jump t (.insert chain rule) := by
  simp [exec, parseCommand, h]

theorem exec_append
    : exec ("-t" :: "nat" :: "-A" :: chain :: words) t = Chains.exec Rule.jump t (.append chain rule) := by
  simp [exec, parseCommand, h]

end exec

end Iptables

end OpenRusty
