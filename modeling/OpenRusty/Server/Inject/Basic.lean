import OpenRusty.Core.Config
import OpenRusty.Core.Num
import Mathlib.Data.List.Destutter
import Mathlib.Data.List.Sort

/-!
This module contains the annotations of a workload that `inject` reads (`inject/mod.rs`), and the command
of the init container that it renders from them (`inject/render.rs`).
-/

namespace OpenRusty

namespace Inject

def annotationPrefix : String := "config.openrusty.io/"

def inboundPort : UInt16 := 4143

def outboundPort : UInt16 := 4140

def adminPort : UInt16 := 4191

def adminIgnorePort : UInt16 := adminPort

def defaultProxyUid : UInt32 := 511

def defaultLogLevel : String := "warn"

structure InjectParams where
  enabled : Bool := true
  skipInboundPorts : List UInt16 := []
  opaquePorts : List UInt16 := []
  proxyUid : UInt32 := defaultProxyUid
  logLevel : String := defaultLogLevel
  egressMode : EgressMode := .direct
  egressGateway : String := ""
  appPort : Option UInt16 := none
  deriving DecidableEq, Repr

structure Annotations where
  entries : List (String × String)
  sorted : entries.Pairwise fun a b => a.1 < b.1

def Annotations.get (annotations : Annotations) (name : String) : Option String :=
  annotations.entries.lookup (annotationPrefix ++ name)

section parse

variable (debug : String → String)

def invalid (what got want : String) : String :=
  "annotation " ++ annotationPrefix ++ what ++ ": " ++ debug got ++ " is not one of " ++ want

def parsePortsFrom (what raw : String) (parts : List String) (out : List UInt16)
    : Except String (List UInt16) :=
  match parts with
  | [] => .ok out
  | part :: parts =>
    if (trim part).isEmpty then
      .error (invalid debug what raw "a comma-separated port list")
    else
      match parseU16 (trim part) with
      | none => .error (invalid debug what raw "a comma-separated port list")
      | some port => parsePortsFrom what raw parts (if out.contains port then out else out ++ [port])

def parsePorts (what raw : String) : Except String (List UInt16) :=
  parsePortsFrom debug what raw (splitChar ',' raw) []

def logLevels : List String := ["trace", "debug", "info", "warn", "error"]

def parseEnabled (what raw : String) : Except String Bool :=
  match raw with
  | "enabled" => .ok true
  | "disabled" => .ok false
  | other => .error (invalid debug what other "enabled|disabled")

def parseUid (what raw : String) : Except String UInt32 :=
  match parseU32 (trim raw) with
  | some uid => .ok uid
  | none => .error (invalid debug what raw "a numeric uid")

def parseLogLevel (what raw : String) : Except String String :=
  if raw ∈ logLevels then .ok raw else .error (invalid debug what raw "trace|debug|info|warn|error")

def parseEgressMode (what raw : String) : Except String EgressMode :=
  match raw with
  | "direct" => .ok .direct
  | "gateway" => .ok .gateway
  | "deny" => .ok .deny
  | other => .error (invalid debug what other "direct|gateway|deny")

def parseAppPort (what raw : String) : Except String UInt16 :=
  match parseU16 (trim raw) with
  | some port => .ok port
  | none => .error (invalid debug what raw "a port number")

def setParam (name value : String) (p : InjectParams) : Except String InjectParams :=
  match name with
  | "inject" => (parseEnabled debug name value).map fun enabled => { p with enabled := enabled }
  | "skip-inbound-ports" =>
    (parsePorts debug name value).map fun ports => { p with skipInboundPorts := ports }
  | "opaque-ports" => (parsePorts debug name value).map fun ports => { p with opaquePorts := ports }
  | "proxy-uid" => (parseUid debug name value).map fun uid => { p with proxyUid := uid }
  | "proxy-log-level" => (parseLogLevel debug name value).map fun level => { p with logLevel := level }
  | "egress-mode" => (parseEgressMode debug name value).map fun mode => { p with egressMode := mode }
  | "egress-gateway" => .ok { p with egressGateway := trim value }
  | "app-port" => (parseAppPort debug name value).map fun port => { p with appPort := some port }
  | _ => .ok p

def stripPrefix (s p : String) : Option String :=
  if startsWith s p then some (String.ofList (s.toList.drop p.toList.length)) else none

def parseEntries (entries : List (String × String)) (p : InjectParams) : Except String InjectParams :=
  match entries with
  | [] => .ok p
  | (key, value) :: entries =>
    match stripPrefix key annotationPrefix with
    | none => parseEntries entries p
    | some name =>
      match setParam debug name value p with
      | .ok p => parseEntries entries p
      | .error e => .error e

def parseAnnotations (annotations : Annotations) : Except String InjectParams :=
  match parseEntries debug annotations.entries {} with
  | .ok p =>
    if p.egressMode = .gateway && p.egressGateway.isEmpty then
      .error ("annotation " ++ annotationPrefix ++ "egress-gateway is required when " ++ annotationPrefix
        ++ "egress-mode is \"gateway\"")
    else
      .ok p
  | .error e => .error e

end parse

def dedup (l : List UInt16) : List UInt16 := l.destutter (· ≠ ·)

def ignoredPorts (p : InjectParams) : List UInt16 :=
  dedup ((p.skipInboundPorts ++ [adminIgnorePort]).insertionSort (· ≤ ·))

def ignoreInboundPorts (p : InjectParams) : String := ",".intercalate ((ignoredPorts p).map toString)

def initCommand (p : InjectParams) : List String :=
  [
    "openrusty",
    "iptables-init",
    "--proxy-uid",
    toString p.proxyUid,
    "--inbound-port",
    toString inboundPort,
    "--outbound-port",
    toString outboundPort,
    "--ignore-inbound-ports",
    ignoreInboundPorts p
  ]

end Inject

end OpenRusty
