import OpenRusty.Core.Net
import OpenRusty.Lib.Fallible

/-!
This module contains the parameters of `iptables-init`, their flags and the plan of commands that is made
from them (`init/mod.rs`).
-/

namespace OpenRusty

namespace Init

def chainIn : String := "OPENRUSTY_IN"

def chainOut : String := "OPENRUSTY_OUT"

def comment : String := "openrusty-init"

inductive Backend where
  | auto
  | iptables
  deriving DecidableEq, Repr

structure InitParams where
  proxyUid : UInt32 := 65534
  inboundPort : UInt16 := 4143
  outboundPort : UInt16 := 4140
  ignoreInboundPorts : List UInt16 := [4191]
  ignoreOutboundPorts : List UInt16 := [443]
  skipSubnets : List String := []
  backend : Backend := .auto
  dryRun : Bool := false
  deriving DecidableEq, Repr

def parseNum (s what : String) : Except String UInt32 :=
  match parseU32 s with
  | some n => .ok n
  | none => .error ("invalid " ++ what ++ " '" ++ s ++ "'")

def parsePort (s : String) : Except String UInt16 :=
  match parseU16 s with
  | some port => if port = 0 then .error (invalidPort s) else .ok port
  | none => .error (invalidPort s)
where
  invalidPort (s : String) : String := "invalid port '" ++ s ++ "' (1-65535)"

def parsePorts (s : String) : Except String (List UInt16) :=
  ((splitChar ',' s).filter fun x => !(trim x).isEmpty).mapM fun x => parsePort (trim x)

def parseSubnet (cidr : String) : Except String String :=
  match splitOnce '/' cidr with
  | some (addr, mask) =>
    match IpAddr.parse addr with
    | none => .error (invalidSubnet cidr)
    | some addr =>
      match parseU32 mask with
      | some m => if m.toNat ≤ maxMask addr then .ok cidr else .error (invalidSubnet cidr)
      | none => .error (invalidSubnet cidr)
  | none =>
    match IpAddr.parse cidr with
    | some _ => .ok cidr
    | none => .error (invalidSubnet cidr)
where
  maxMask (addr : IpAddr) : Nat := if addr.isIpv4 then 32 else 128

  invalidSubnet (cidr : String) : String := "invalid subnet '" ++ cidr ++ "'"

def parseSubnets (s : String) : Except String (List String) :=
  (((splitChar ',' s).map trim).filter fun x => !x.isEmpty).mapM parseSubnet

def parseBackend (s : String) : Except String Backend :=
  match s with
  | "auto" => .ok .auto
  | "iptables" => .ok .iptables
  | other => .error ("unknown backend '" ++ other ++ "' (auto|iptables)")

abbrev ParsedArgs := InitParams × Option UInt32

def valueFlag (flag : String) : Option (String → ParsedArgs → Except String ParsedArgs) :=
  match flag with
  | "--proxy-uid" => some fun v a => (parseNum v "proxy-uid").map fun uid => (a.1, some uid)
  | "--inbound-port" => some fun v a =>
    (parsePort v).map fun port => ({ a.1 with inboundPort := port }, a.2)
  | "--outbound-port" => some fun v a =>
    (parsePort v).map fun port => ({ a.1 with outboundPort := port }, a.2)
  | "--ignore-inbound-ports" => some fun v a =>
    (parsePorts v).map fun ports => ({ a.1 with ignoreInboundPorts := ports }, a.2)
  | "--ignore-outbound-ports" => some fun v a =>
    (parsePorts v).map fun ports => ({ a.1 with ignoreOutboundPorts := ports }, a.2)
  | "--skip-subnets" => some fun v a =>
    (parseSubnets v).map fun subnets => ({ a.1 with skipSubnets := subnets }, a.2)
  | "--backend" => some fun v a =>
    (parseBackend v).map fun backend => ({ a.1 with backend := backend }, a.2)
  | _ => none

def splitFlag (arg : String) : String × Option String :=
  match splitOnce '=' arg with
  | some (flag, value) => if startsWith flag "--" then (flag, some value) else (arg, none)
  | none => (arg, none)

def parseArgsFrom (argv : List String) (a : ParsedArgs) : Except String ParsedArgs :=
  match argv with
  | [] => .ok a
  | arg :: argv =>
    match splitFlag arg with
    | (flag, inline) =>
      match valueFlag flag with
      | some set =>
        match inline with
        | some value =>
          match set value a with
          | .ok a => parseArgsFrom argv a
          | .error e => .error e
        | none =>
          match argv with
          | value :: argv =>
            match set value a with
            | .ok a => parseArgsFrom argv a
            | .error e => .error e
          | [] => .error (flag ++ " needs a value")
      | none =>
        if flag = "--dry-run" && inline.isNone then
          parseArgsFrom argv ({ a.1 with dryRun := true }, a.2)
        else
          .error ("unknown flag '" ++ flag ++ "' (see --help)")

def parseArgs (argv : List String) : Except String InitParams :=
  match parseArgsFrom argv ({}, none) with
  | .ok (p, some uid) => .ok { p with proxyUid := uid }
  | .ok (_, none) => .error "missing required flag --proxy-uid <UID>"
  | .error e => .error e

def chainSetup (chain hook : String) : List String :=
  let jump := "-m comment --comment " ++ comment ++ " -j " ++ chain
  [
    "iptables -t nat -N " ++ chain,
    "iptables -t nat -F " ++ chain,
    "iptables -t nat -C " ++ hook ++ " " ++ jump,
    "iptables -t nat -I " ++ hook ++ " " ++ jump
  ]

def inboundRules (params : InitParams) : List String :=
  ["iptables -t nat -A " ++ chainIn ++ " -p tcp -i lo -m comment --comment " ++ comment ++ " -j RETURN"]
    ++ params.ignoreInboundPorts.map (fun port =>
      "iptables -t nat -A " ++ chainIn ++ " -p tcp --dport " ++ toString port
        ++ " -m comment --comment " ++ comment ++ " -j RETURN")
    ++ ["iptables -t nat -A " ++ chainIn ++ " -p tcp -m comment --comment " ++ comment
        ++ " -j REDIRECT --to-ports " ++ toString params.inboundPort]

/-- Loopback and the proxy's own dials come first, then the exemptions, then the redirect of the rest. -/
def outboundRules (params : InitParams) : List String :=
  ["iptables -t nat -A " ++ chainOut ++ " -p tcp -o lo -m comment --comment " ++ comment ++ " -j RETURN",
    "iptables -t nat -A " ++ chainOut ++ " -p tcp -m owner --uid-owner " ++ toString params.proxyUid
      ++ " -m comment --comment " ++ comment ++ " -j RETURN"]
    ++ params.ignoreOutboundPorts.map (fun port =>
      "iptables -t nat -A " ++ chainOut ++ " -p tcp --dport " ++ toString port
        ++ " -m comment --comment " ++ comment ++ " -j RETURN")
    ++ params.skipSubnets.map (fun subnet =>
      "iptables -t nat -A " ++ chainOut ++ " -p tcp -d " ++ subnet
        ++ " -m comment --comment " ++ comment ++ " -j RETURN")
    ++ ["iptables -t nat -A " ++ chainOut ++ " -p tcp -m comment --comment " ++ comment
        ++ " -j REDIRECT --to-ports " ++ toString params.outboundPort]

def buildRules (params : InitParams) : List String :=
  chainSetup chainIn "PREROUTING" ++ inboundRules params ++ chainSetup chainOut "OUTPUT"
    ++ outboundRules params

end Init

end OpenRusty
