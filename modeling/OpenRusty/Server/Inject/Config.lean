import OpenRusty.Core.Validate
import OpenRusty.Server.Inject.Basic

/-!
This module contains the configuration file of the sidecar as `inject` renders it (`inject/config.rs`),
and the listeners that such a file declares.
-/

namespace OpenRusty

namespace Inject

def pluginsDir : String := "/dev/null-plugins"

def egressModeStr (mode : EgressMode) : String :=
  match mode with
  | .direct => "direct"
  | .gateway => "gateway"
  | .deny => "deny"

def gatewayLine (p : InjectParams) : String :=
  if p.egressMode = .gateway then "gateway = \"" ++ p.egressGateway ++ "\"\n" else ""

def appSection (p : InjectParams) : String :=
  match p.appPort with
  | some port =>
    "\n[[upstreams]]\nname = \"app\"\n\n  [[upstreams.peers]]\n  addr = \"127.0.0.1:" ++ toString port
      ++ "\"\n\n[[routes]]\npath_prefix = \"/\"\nupstream = \"app\"\n\n"
  | none => ""

def listenerLines (p : InjectParams) : List String :=
  [
    "# Generated by `openrusty inject`; edit with care - the sidecar",
    "# restarts with this file verbatim.",
    "[server]",
    "listen = \"0.0.0.0:" ++ toString inboundPort ++ "\"",
    "log_level = \"" ++ p.logLevel ++ "\"",
    "",
    "[[server.listeners]]",
    "role = \"inbound\"",
    "listen = \"0.0.0.0:" ++ toString inboundPort ++ "\"",
    "transparent = true",
    "",
    "[[server.listeners]]",
    "role = \"outbound\"",
    "listen = \"0.0.0.0:" ++ toString outboundPort ++ "\"",
    "transparent = true",
    "",
    "[[server.listeners]]",
    "role = \"admin\"",
    "listen = \"0.0.0.0:" ++ toString adminPort ++ "\"",
    "",
    "[plugins]",
    "# No plugins volume: a missing dir is \"no plugins\", never fatal.",
    "dir = \"" ++ pluginsDir ++ "\"",
    "",
    "[egress]",
    "mode = \"" ++ egressModeStr p.egressMode ++ "\""
  ]

def unlines (lines : List String) : String := String.join (lines.map fun line => line ++ "\n")

def configToml (p : InjectParams) : String :=
  unlines (listenerLines p) ++ gatewayLine p ++ appSection p ++ "[ingress]\nenabled = false\n"

def contains (s part : String) : Bool := s.toList.tails.any fun l => part.toList.isPrefixOf l

/-- The one failure of the validation that is tolerated is a gateway that does not resolve here. -/
def renderConfigToml (fromToml : String → Except String GatewayConfig) (env : ConfigEnv) (p : InjectParams)
    : Except String String :=
  if p.egressMode = .gateway && p.egressGateway.isEmpty then
    .error ("egress-mode \"gateway\" requires the " ++ annotationPrefix ++ "egress-gateway annotation")
  else
    match fromToml (configToml p) with
    | .error e => .error ("rendered config invalid: " ++ e)
    | .ok cfg =>
      match cfg.validate env with
      | .ok () => .ok (configToml p)
      | .error e =>
        if contains e.toString "egress.gateway must be a resolvable host:port" then
          .ok (configToml p)
        else
          .error ("rendered config invalid: " ++ e.toString)

section listeners

def isHeader (line : String) : Bool := startsWith line "["

def keysOf (lines : List String) : List (String × String) :=
  ((lines.takeWhile fun line => !isHeader line).filterMap (splitOnce '=')).map fun e => (trim e.1, trim e.2)

def tablesOf (lines : List String) : List (String × List (String × String)) :=
  match lines with
  | [] => []
  | line :: lines => if isHeader line then (trim line, keysOf lines) :: tablesOf lines else tablesOf lines

def portOf (value : String) : Option UInt16 :=
  match splitOnce ':' value with
  | some (_, port) => parseU16 (String.ofList (port.toList.takeWhile (· != '"')))
  | none => none

def listenPort (role toml : String) : Option UInt16 :=
  let listeners := (tablesOf (splitChar '\n' toml)).filter fun t => t.1 == "[[server.listeners]]"
  match listeners.find? fun t => t.2.lookup "role" == some ("\"" ++ role ++ "\"") with
  | some t => (t.2.lookup "listen").bind portOf
  | none => none

end listeners

end Inject

end OpenRusty
