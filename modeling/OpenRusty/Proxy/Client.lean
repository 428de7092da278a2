import OpenRusty.Lib.FinMap
import OpenRusty.Proxy.Upstream

/-!
This module contains the pool of upstream clients (`client.rs`): one client for each peer address, and one
for each address and identity of TLS material. The first `get` of a key fixes the timeouts of its client.
-/

namespace OpenRusty

structure TlsClientKey where
  serverName : String
  caCert : Option String
  clientCert : Option String
  clientKey : Option String
  insecureSkipVerify : Bool
  deriving DecidableEq, Repr

def TlsClientKey.fromConfig (cfg : UpstreamTlsConfig) : TlsClientKey where
  serverName := cfg.serverName
  caCert := cfg.caCert
  clientCert := cfg.clientCert
  clientKey := cfg.clientKey
  insecureSkipVerify := cfg.insecureSkipVerify

structure UpstreamTls where
  serverName : String
  key : TlsClientKey
  deriving DecidableEq, Repr

def UpstreamTls.build (cfg : UpstreamTlsConfig) : UpstreamTls where
  serverName := cfg.serverName
  key := .fromConfig cfg

inductive PoolKey where
  | http (addr : SocketAddr)
  | https (addr : SocketAddr) (key : TlsClientKey)
  deriving DecidableEq, Repr

def PoolKey.isHttps (k : PoolKey) : Bool :=
  match k with
  | .http _ => false
  | .https _ _ => true

structure HttpClient where
  connectTimeout : Nat
  poolIdleTimeout : Nat
  deriving DecidableEq, Repr

structure HttpsClient where
  addr : SocketAddr
  serverName : String
  connectTimeout : Nat
  poolIdleTimeout : Nat
  deriving DecidableEq, Repr

structure ClientPool where
  http : AList fun _ : SocketAddr => HttpClient
  https : AList fun _ : SocketAddr × TlsClientKey => HttpsClient

namespace ClientPool

def new : ClientPool := { http := ∅, https := ∅ }

def get (pool : ClientPool) (addr : SocketAddr) (connectTimeout poolIdleTimeout : Nat)
    : HttpClient × ClientPool :=
  match pool.http.lookup addr with
  | some client => (client, pool)
  | none =>
    let client := { connectTimeout := connectTimeout, poolIdleTimeout := poolIdleTimeout }
    (client, { pool with http := pool.http.insert addr client })

def getTls (pool : ClientPool) (addr : SocketAddr) (tls : UpstreamTls) (connectTimeout poolIdleTimeout : Nat)
    : HttpsClient × ClientPool :=
  match pool.https.lookup (addr, tls.key) with
  | some client => (client, pool)
  | none =>
    let client := {
      addr := addr
      serverName := tls.serverName
      connectTimeout := connectTimeout
      poolIdleTimeout := poolIdleTimeout
    }
    (client, { pool with https := pool.https.insert (addr, tls.key) client })

/-- Each of the two tables has a lock of its own. -/
def evictHttp (pool : ClientPool) (keep : List PoolKey) : ClientPool :=
  { pool with http := pool.http.retain fun addr _ => keep.contains (.http addr) }

def evictHttps (pool : ClientPool) (keep : List PoolKey) : ClientPool :=
  { pool with https := pool.https.retain fun k _ => keep.contains (.https k.1 k.2) }

def evictExcept (pool : ClientPool) (keep : List PoolKey) : ClientPool := (pool.evictHttp keep).evictHttps keep

def contains (pool : ClientPool) (k : PoolKey) : Bool :=
  match k with
  | .http addr => (pool.http.lookup addr).isSome
  | .https addr key => (pool.https.lookup (addr, key)).isSome

section contains

variable (pool : ClientPool) (k : PoolKey)

@[simp]
theorem contains_new : new.contains k = false := by
  cases k with
  | http addr => rfl
  | https addr key => rfl

theorem contains_get (addr : SocketAddr) (connectTimeout poolIdleTimeout : Nat)
    : (pool.get addr connectTimeout poolIdleTimeout).2.contains k = true
        ↔
      k = .http addr ∨ pool.contains k = true := by
  unfold get
  cases hlookup : pool.http.lookup addr with
  | some client =>
    constructor
    . exact .inr
    . rintro (rfl | h)
      . simp [contains, hlookup]
      . exact h
  | none =>
    cases k with
    | https addr' key => simp [contains]
    | http addr' =>
      by_cases haddr : addr' = addr
      . subst haddr
        simp [contains]
      . simp [contains, AList.lookup_insert_ne haddr, haddr]

theorem contains_getTls (addr : SocketAddr) (tls : UpstreamTls) (connectTimeout poolIdleTimeout : Nat)
    : (pool.getTls addr tls connectTimeout poolIdleTimeout).2.contains k = true
        ↔
      k = .https addr tls.key ∨ pool.contains k = true := by
  unfold getTls
  cases hlookup : pool.https.lookup (addr, tls.key) with
  | some client =>
    constructor
    . exact .inr
    . rintro (rfl | h)
      . simp [contains, hlookup]
      . exact h
  | none =>
    cases k with
    | http addr' => simp [contains]
    | https addr' key =>
      by_cases hkey : (addr', key) = (addr, tls.key)
      . cases hkey
        simp [contains]
      . have hne : PoolKey.https addr' key ≠ .https addr tls.key := by
          rintro h
          cases h
          exact hkey rfl
        simp [contains, AList.lookup_insert_ne hkey, hne]

variable (keep : List PoolKey)

theorem contains_evictHttp
    : (pool.evictHttp keep).contains k = true ↔ pool.contains k = true ∧ (k.isHttps = false → k ∈ keep) := by
  cases k with
  | https addr key => simp [contains, evictHttp, PoolKey.isHttps]
  | http addr =>
    rw [contains, evictHttp, AList.lookup_retain]
    simp [contains, PoolKey.isHttps]
    cases pool.http.lookup addr with
    | none => simp
    | some client => simp

theorem contains_evictHttps
    : (pool.evictHttps keep).contains k = true ↔ pool.contains k = true ∧ (k.isHttps = true → k ∈ keep) := by
  cases k with
  | http addr => simp [contains, evictHttps, PoolKey.isHttps]
  | https addr key =>
    rw [contains, evictHttps, AList.lookup_retain]
    simp [contains, PoolKey.isHttps]
    cases pool.https.lookup (addr, key) with
    | none => simp
    | some client => simp

end contains

end ClientPool

end OpenRusty
