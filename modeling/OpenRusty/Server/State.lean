import OpenRusty.Proxy.Health.Basic
import OpenRusty.Proxy.Upstream

/-!
This module contains the runtime that requests are pinned to and its rebuild from a configuration
(`state.rs`): the upstreams by name, the last one of a name winning, and the registration of their
peers with the health registry.
-/

namespace OpenRusty

structure UpstreamRt where
  up : Upstream
  swrr : List Int
  deriving DecidableEq, Repr

structure RuntimeSnapshot where
  generation : Nat
  routes : List RouteConfig
  upstreams : AList fun _ : String => UpstreamRt

def UpstreamRt.fromConfig (cfg : UpstreamConfig) : UpstreamRt :=
  let up := Upstream.fromConfig cfg
  { up := up, swrr := up.peers.map fun _ => 0 }

def registerUpstream (h : HealthRegistry) (uc : UpstreamConfig) : HealthRegistry :=
  h.register uc.name (Upstream.fromConfig uc).addrs

def RuntimeSnapshot.fromConfig (cfg : Config) (generation : Nat) : RuntimeSnapshot where
  generation := generation
  routes := cfg.routes
  upstreams := cfg.upstreams.foldl (fun m uc => m.insert uc.name (UpstreamRt.fromConfig uc)) ∅

def applyRuntime (h : HealthRegistry) (cfg : Config) (generation : Nat)
    : HealthRegistry × RuntimeSnapshot :=
  (cfg.upstreams.foldl registerUpstream h, .fromConfig cfg generation)

end OpenRusty
