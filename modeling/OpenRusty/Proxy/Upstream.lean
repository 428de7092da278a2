import OpenRusty.Core.Config

/-!
This module contains the upstreams that requests are proxied to (`upstream.rs`) and the resolution of
the endpoints of service-discovered upstreams into peers (`resolve.rs`). The name lookup is a
parameter, `none` standing for a lookup that failed.
-/

namespace OpenRusty

structure Peer where
  addr : SocketAddr
  weight : Nat
  deriving DecidableEq, Repr

structure Upstream where
  name : String
  kind : BalancerKind
  retries : Nat
  retryOnTimeout : Bool
  connectTimeout : Nat
  poolIdleTimeout : Nat
  peers : List Peer
  health : HealthConfig
  deriving DecidableEq, Repr

namespace Upstream

def fromConfig (cfg : UpstreamConfig) : Upstream where
  name := cfg.name
  kind := cfg.balancer
  retries := cfg.retries
  retryOnTimeout := cfg.retryOnTimeout
  connectTimeout := cfg.connectTimeoutMs
  poolIdleTimeout := cfg.poolIdleTimeoutMs
  peers := cfg.peers.map fun p => { addr := p.addr, weight := p.weight }
  health := cfg.health

def addrs (up : Upstream) : List SocketAddr := up.peers.map Peer.addr

end Upstream

variable (lookupHost : String → Option (List SocketAddr))

def resolveEndpoint (endpoint : String) (seen : List SocketAddr) : List SocketAddr :=
  match lookupHost endpoint with
  | some addrs => go addrs seen
  | none => []
where
  go (addrs seen : List SocketAddr) : List SocketAddr :=
    match addrs with
    | [] => []
    | a :: addrs => if seen.contains a then go addrs seen else a :: go addrs (a :: seen)

def resolveEndpoints (endpoints : List String) (seen : List SocketAddr) : List SocketAddr :=
  match endpoints with
  | [] => []
  | endpoint :: endpoints =>
    let resolved := resolveEndpoint lookupHost endpoint seen
    resolved ++ resolveEndpoints endpoints (resolved ++ seen)

def mergeResolved (cfg : UpstreamConfig) (resolved : List SocketAddr) : UpstreamConfig :=
  { cfg with
    peers := cfg.peers ++ resolved.map fun addr => { addr := addr, weight := 1 }
    endpoints := [] }

def resolveUpstream (up : UpstreamConfig) : UpstreamConfig :=
  if up.endpoints.isEmpty then
    up
  else
    let resolved := resolveEndpoints lookupHost up.endpoints (up.peers.map PeerConfig.addr)
    if resolved.isEmpty then { up with endpoints := [] } else mergeResolved up resolved

def resolveConfig (cfg : Config) : Config :=
  { cfg with upstreams := cfg.upstreams.map (resolveUpstream lookupHost) }

section resolved

theorem resolveEndpoint.fresh_go (addrs seen : List SocketAddr)
    : (go addrs seen).Nodup ∧ ∀ a ∈ go addrs seen, a ∉ seen := by
  induction addrs generalizing seen with
  | nil => exact ⟨List.nodup_nil, by simp [go]⟩
  | cons a addrs ih =>
    unfold go
    split
    . exact ih seen
    . next hseen =>
      rcases ih (a :: seen) with ⟨hnodup, hfresh⟩
      constructor
      . rw [List.nodup_cons]
        refine ⟨?_, hnodup⟩
        intro hmem
        exact hfresh a hmem List.mem_cons_self
      . intro b hb
        rcases List.mem_cons.mp hb with rfl | hb
        . simpa using hseen
        . intro hmem
          exact hfresh b hb (List.mem_cons_of_mem _ hmem)

theorem fresh_resolveEndpoint (endpoint : String) (seen : List SocketAddr)
    : (resolveEndpoint lookupHost endpoint seen).Nodup ∧ ∀ a ∈ resolveEndpoint lookupHost endpoint seen, a ∉ seen := by
  unfold resolveEndpoint
  split
  . apply resolveEndpoint.fresh_go
  . exact ⟨List.nodup_nil, by simp⟩

theorem fresh_resolveEndpoints (endpoints : List String) (seen : List SocketAddr)
    : (resolveEndpoints lookupHost endpoints seen).Nodup
      ∧ ∀ a ∈ resolveEndpoints lookupHost endpoints seen, a ∉ seen := by
  induction endpoints generalizing seen with
  | nil => exact ⟨List.nodup_nil, by simp [resolveEndpoints]⟩
  | cons endpoint endpoints ih =>
    unfold resolveEndpoints
    dsimp only
    have hfirst := fresh_resolveEndpoint lookupHost endpoint seen
    have hrest := ih (resolveEndpoint lookupHost endpoint seen ++ seen)
    constructor
    . rw [List.nodup_append]
      refine ⟨hfirst.1, hrest.1, ?_⟩
      rintro a ha b hb rfl
      exact hrest.2 a hb (List.mem_append_left _ ha)
    . intro a ha
      rcases List.mem_append.mp ha with ha | ha
      . exact hfirst.2 a ha
      . intro hmem
        exact hrest.2 a ha (List.mem_append_right _ hmem)

theorem nodup_resolveUpstream_iff (up : UpstreamConfig)
    : ((resolveUpstream lookupHost up).peers.map PeerConfig.addr).Nodup ↔ (up.peers.map PeerConfig.addr).Nodup := by
  unfold resolveUpstream
  split
  . rfl
  . dsimp only
    split
    . rfl
    . have hfresh := fresh_resolveEndpoints lookupHost up.endpoints (up.peers.map PeerConfig.addr)
      unfold mergeResolved
      dsimp only
      rw [List.map_append, List.map_map, List.nodup_append]
      constructor
      . intro h
        exact h.1
      . intro h
        refine ⟨h, ?_, ?_⟩
        . simpa [Function.comp_def] using hfresh.1
        . intro a ha b hb heq
          subst heq
          refine hfresh.2 a ?_ ha
          simpa [Function.comp_def] using hb

theorem resolveUpstream_name (up : UpstreamConfig) : (resolveUpstream lookupHost up).name = up.name := by
  unfold resolveUpstream
  split
  . rfl
  . dsimp only
    split
    . rfl
    . rfl

end resolved

end OpenRusty
