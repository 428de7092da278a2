import OpenRusty.Lib.Pool
import OpenRusty.Proxy.Client
import OpenRusty.Server.State

/-!
This module contains the use of the client pool: `apply_runtime` (`state.rs`) makes the clients of a
configuration, evicts all others and publishes the runtime, while requests, WebSocket handshakes and
probes (`pipeline/mod.rs`, `ws.rs`, `active_probe.rs`) take the clients of the runtime that they loaded
when they started. Every access to one table of the pool or to the runtime is one atomic step.
-/

namespace OpenRusty

structure TlsUpstream extends Upstream where
  tls : Option UpstreamTls
  deriving DecidableEq, Repr

namespace TlsUpstream

def fromConfig (cfg : UpstreamConfig) (tls : Option UpstreamTls) : TlsUpstream :=
  { toUpstream := Upstream.fromConfig cfg, tls := tls }

def key (up : TlsUpstream) (peer : Peer) : PoolKey :=
  match up.tls with
  | some tls => .https peer.addr tls.key
  | none => .http peer.addr

def getClient (up : TlsUpstream) (peer : Peer) (pool : ClientPool) : ClientPool :=
  match up.tls with
  | some tls => (pool.getTls peer.addr tls up.connectTimeout up.poolIdleTimeout).2
  | none => (pool.get peer.addr up.connectTimeout up.poolIdleTimeout).2

def clients (up : TlsUpstream) : List (TlsUpstream × Peer) := up.peers.map fun peer => (up, peer)

end TlsUpstream

namespace Clients

abbrev Upstreams := AList fun _ : String => TlsUpstream

def tlsPlans (cfg : Config) : AList fun _ : String => UpstreamTls :=
  cfg.upstreams.foldl (fun m uc =>
    match uc.tls with
    | some tc => m.insert uc.name (.build tc)
    | none => m) ∅

def upstreamsOf (cfg : Config) : List TlsUpstream :=
  cfg.upstreams.map fun uc => .fromConfig uc ((tlsPlans cfg).lookup uc.name)

def published (cfg : Config) : Upstreams := (upstreamsOf cfg).foldl (fun m up => m.insert up.name up) ∅

def clientsOf (cfg : Config) : List (TlsUpstream × Peer) := (upstreamsOf cfg).flatMap TlsUpstream.clients

structure State where
  pool : ClientPool
  runtime : Upstreams

inductive Task where
  -- `apply_runtime`, with the keys of the clients that are made already
  | registering (next : Upstreams) (rest : List (TlsUpstream × Peer)) (live : List PoolKey)
  | evicting (next : Upstreams) (live : List PoolKey)
  | storing (next : Upstreams)
  -- a request, a handshake or a sweep of probes
  | arriving
  | serving (pinned : Upstreams)
  | finished

inductive Call where
  | applyRuntime (cfg : Config)
  | serve

inductive Input where
  | run
  | take (upstream : String) (peer : Nat)
  | finish
  deriving DecidableEq, Repr

def spawn (call : Call) : Task :=
  match call with
  | .applyRuntime cfg => .registering (published cfg) (clientsOf cfg) []
  | .serve => .arriving

def act (s : State) (t : Task) (x : Input) : Option (State × Task) :=
  match t, x with
  | .registering next ((up, peer) :: rest) live, .run =>
    some ({ s with pool := up.getClient peer s.pool }, .registering next rest (live ++ [up.key peer]))
  | .registering next [] live, .run => some ({ s with pool := s.pool.evictHttp live }, .evicting next live)
  | .evicting next live, .run => some ({ s with pool := s.pool.evictHttps live }, .storing next)
  | .storing next, .run => some ({ s with runtime := next }, .finished)
  | .arriving, .run => some (s, .serving s.runtime)
  | .serving pinned, .take upstream i =>
    match pinned.lookup upstream with
    | some up =>
      match up.peers[i]? with
      | some peer => some ({ s with pool := up.getClient peer s.pool }, .serving pinned)
      | none => none
    | none => none
  | .serving _, .finish => some (s, .finished)
  | _, _ => none

abbrev System := Pool State Task

abbrev Event := Pool.Event Call Input

def step : System → Event → Option System := Pool.step spawn act

def boot : System := { shared := { pool := .new, runtime := ∅ }, threads := [] }

section configures

def Configures (m : Upstreams) (k : PoolKey) : Prop :=
  ∃ name up, m.lookup name = some up ∧ ∃ peer ∈ up.peers, k = up.key peer

instance (m : Upstreams) (k : PoolKey) : Decidable (Configures m k) :=
  decidable_of_iff (∃ e ∈ m.entries, ∃ peer ∈ e.2.peers, k = e.2.key peer) (by
    constructor
    . rintro ⟨⟨name, up⟩, hentry, hpeer⟩
      exact ⟨name, up, AList.mem_lookup_iff.mpr hentry, hpeer⟩
    . rintro ⟨name, up, hlookup, hpeer⟩
      exact ⟨⟨name, up⟩, AList.mem_lookup_iff.mp hlookup, hpeer⟩)

instance (t : Task) : Decidable (t = .finished) :=
  match t with
  | .finished => isTrue rfl
  | .registering .. => isFalse (by simp)
  | .evicting .. => isFalse (by simp)
  | .storing _ => isFalse (by simp)
  | .arriving => isFalse (by simp)
  | .serving _ => isFalse (by simp)

def AllFinished (p : System) : Prop := ∀ t ∈ p.threads, t = .finished

instance (p : System) : Decidable (AllFinished p) :=
  inferInstanceAs (Decidable (∀ t ∈ p.threads, t = .finished))

def OnlyConfigured (p : System) : Prop :=
  ∀ k, p.shared.pool.contains k = true → Configures p.shared.runtime k

end configures

section covered

namespace Task

def evicts (t : Task) (k : PoolKey) : Bool :=
  match t with
  | .registering .. => true
  | .evicting .. => k.isHttps
  | _ => false

def next (t : Task) : Option Upstreams :=
  match t with
  | .registering next .. => some next
  | .evicting next _ => some next
  | .storing next => some next
  | _ => none

def leaves (s : State) (t : Task) (x : Input) : List PoolKey :=
  match t, x with
  | .registering _ [] live, .run => live.filter fun k => !k.isHttps && s.pool.contains k
  | .evicting _ live, .run => live.filter fun k => k.isHttps && s.pool.contains k
  | .serving pinned, .take upstream i =>
    match pinned.lookup upstream with
    | some up =>
      match up.peers[i]? with
      | some peer => [up.key peer].filter fun k => !s.pool.contains k
      | none => []
    | none => []
  | _, _ => []

end Task

def Wanted (p : System) (k : PoolKey) : Prop :=
  (∀ t ∈ p.threads, ∀ next, t.next = some next → Configures next k)
    ∧ ((∀ t ∈ p.threads, t.next = none) → Configures p.shared.runtime k)

instance (t : Task) (k : PoolKey) : Decidable (∀ next, t.next = some next → Configures next k) :=
  match h : t.next with
  | none => isTrue (by simp)
  | some next => decidable_of_iff (Configures next k) (by simp)

instance (p : System) (k : PoolKey) : Decidable (Wanted p k) :=
  inferInstanceAs (Decidable (_ ∧ (_ → _)))

/-- Another task will evict the table of the key, or whatever is published in the end configures it. -/
def Covered (p : System) (i : Nat) (k : PoolKey) : Prop :=
  (∃ j t, j ≠ i ∧ p.threads[j]? = some t ∧ t.evicts k = true) ∨ Wanted p k

instance (p : System) (i : Nat) (k : PoolKey) : Decidable (Covered p i k) :=
  decidable_of_iff
    ((∃ j ∈ List.range p.threads.length, j ≠ i ∧ (p.threads[j]?.any fun t => t.evicts k) = true) ∨ Wanted p k) (by
      apply or_congr_left
      constructor
      . rintro ⟨j, -, hne, hany⟩
        rw [Option.any_eq_true] at hany
        rcases hany with ⟨t, ht, hevicts⟩
        exact ⟨j, t, hne, ht, hevicts⟩
      . rintro ⟨j, t, hne, ht, hevicts⟩
        refine ⟨j, List.mem_range.mpr (List.getElem?_eq_some_iff.mp ht).1, hne, ?_⟩
        rw [ht]
        exact hevicts)

def Ok (p : System) (e : Event) : Prop :=
  match e with
  | .spawn _ => True
  | .step i x => ∀ t, p.threads[i]? = some t → ∀ k ∈ t.leaves p.shared x, Covered p i k

instance (p : System) (e : Event) : Decidable (Ok p e) :=
  match e with
  | .spawn _ => isTrue trivial
  | .step i x =>
    match h : p.threads[i]? with
    | none => isTrue (by simp [Ok, h])
    | some t => decidable_of_iff (∀ k ∈ t.leaves p.shared x, Covered p i k) (by simp [Ok, h])

end covered

end Clients

end OpenRusty
