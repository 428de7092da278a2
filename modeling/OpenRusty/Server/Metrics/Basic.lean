import Mathlib.Data.List.DropRight
import Mathlib.Data.List.Sort
import OpenRusty.Proxy.Health.Active
import OpenRusty.Server.State
import OpenRusty.Wasm.Registry.Basic

/-!
This module contains the metrics of the gateway as a text (`metrics_render.rs`) and the endpoint that serves
it (`app.rs`): the counters of the collector, and what the endpoint reads of the peers and of the plugins
at that moment. The sums of the histograms are floats, `FloatFormat` is how the standard library prints them.
-/

namespace OpenRusty

/-- What `{:.6}` prints: digits, a point, a sign, or the name of a value that is no number. -/
structure FloatFormat (φ : Type) where
  print : φ → String
  plain : ∀ v, ∀ c ∈ (print v).toList, c.isAlphanum = true ∨ c = '.' ∨ c = '-'

namespace Metrics

def durationBuckets : List String :=
  ["0.005", "0.01", "0.025", "0.05", "0.1", "0.25", "0.5", "1", "2.5", "5", "10", "30", "60", "120"]

def phaseBuckets : List String :=
  ["0.000025", "0.00005", "0.0001", "0.00025", "0.0005", "0.001", "0.0025", "0.005", "0.01", "0.025", "0.05",
    "0.1", "0.25", "0.5", "1"]

structure PhaseHist (φ : Type) where
  buckets : List Nat
  buckets_length : buckets.length = phaseBuckets.length
  count : Nat
  sum : φ

/-- The codes are numbers of 16 bits and the counts of 64. -/
structure MetricsSnapshot (φ : Type) where
  requests : AList fun _ : String × Nat => Nat
  attempts : AList fun _ : String × String => Nat
  pluginErrors : AList fun _ : String × String => Nat
  transparent : AList fun _ : String × String => Nat
  dynamic : AList fun _ : String × Nat => Nat
  phases : AList fun _ : String => PhaseHist φ
  buckets : List Nat
  buckets_length : buckets.length = durationBuckets.length
  count : Nat
  sum : φ

abbrev LivePeers := List (String × String × Bool)

abbrev KvView := List (String × Nat)

abbrev ErrorView := List (String × String × Nat)

def escapeLabel (v : String) : String :=
  String.ofList <| v.toList.flatMap fun c =>
    if c = '\\' then
      ['\\', '\\']
    else if c = '"' then
      ['\\', '"']
    else if c = '\n' then
      ['\\', 'n']
    else
      [c]

def trimEnd (c : Char) (s : String) : String := String.ofList (s.toList.rdropWhile fun d => d == c)

def formatSum {φ : Type} (fmt : FloatFormat φ) (v : φ) : String :=
  let s := trimEnd '.' (trimEnd '0' (fmt.print v))
  if s.toList.isEmpty then "0" else s

def header (name help kind : String) : String :=
  "# HELP " ++ name ++ " " ++ help ++ "\n" ++ "# TYPE " ++ name ++ " " ++ kind ++ "\n"

def series (name : String) (labels : List (String × String)) (value : String) : String :=
  let braced :=
    if labels.isEmpty then
      ""
    else
      "\x7b" ++ ",".intercalate (labels.map fun l => l.1 ++ "=\"" ++ l.2 ++ "\"") ++ "\x7d"
  name ++ braced ++ " " ++ value ++ "\n"

def keyLe {β : Type} [LE β] (a b : String × β) : Prop := a.1 < b.1 ∨ a.1 = b.1 ∧ a.2 ≤ b.2

instance {β : Type} [LE β] [DecidableLE β] : DecidableRel (keyLe (β := β)) := fun a b =>
  inferInstanceAs (Decidable (a.1 < b.1 ∨ a.1 = b.1 ∧ a.2 ≤ b.2))

def counter {β : Type} [LE β] [DecidableLE β] (name help label₁ label₂ : String) (write : β → String)
    (counts : AList fun _ : String × β => Nat) : String :=
  header name help "counter"
    ++ String.join ((counts.entries.insertionSort fun a b => keyLe a.1 b.1).map fun e =>
      series name [(label₁, escapeLabel e.1.1), (label₂, write e.1.2)] (toString e.2))

section render

variable {φ : Type} (fmt : FloatFormat φ) (snap : MetricsSnapshot φ)

def requestsTotal : String :=
  counter "openrusty_requests_total" "Total HTTP requests handled by route and status code." "route" "code"
    toString snap.requests

def requestDurationSeconds : String :=
  header "openrusty_request_duration_seconds" "Request handling duration in seconds." "histogram"
    ++ String.join ((durationBuckets.zip snap.buckets).map fun b =>
      series "openrusty_request_duration_seconds_bucket" [("le", b.1)] (toString b.2))
    ++ series "openrusty_request_duration_seconds_bucket" [("le", "+Inf")] (toString snap.count)
    ++ series "openrusty_request_duration_seconds_sum" [] (formatSum fmt snap.sum)
    ++ series "openrusty_request_duration_seconds_count" [] (toString snap.count)

def upstreamAttemptsTotal : String :=
  counter "openrusty_upstream_attempts_total" "Total upstream attempts by upstream and result." "upstream" "result"
    escapeLabel snap.attempts

def mergeErrors (add : Nat → Nat → Nat) (counts : AList fun _ : String × String => Nat) (errors : ErrorView)
    : AList fun _ : String × String => Nat :=
  errors.foldl (fun m e => m.insert (e.1, e.2.1) (add ((m.lookup (e.1, e.2.1)).getD 0) e.2.2)) counts

def pluginErrorsTotal (errors : ErrorView) : String :=
  counter "openrusty_plugin_errors_total" "Total plugin execution errors by plugin and kind." "plugin" "kind"
    escapeLabel (mergeErrors (Word.wrappingAdd 64) snap.pluginErrors errors)

def transparentConnsTotal : String :=
  counter "openrusty_transparent_conns_total"
    "Transparently intercepted connections by listener role and disposition." "role" "outcome" escapeLabel
    snap.transparent

/-- The family is left out while the optional API has not answered a request. -/
def dynamicRequestsTotal : String :=
  if snap.dynamic.entries.isEmpty then
    ""
  else
    counter "openrusty_dynamic_requests_total" "Dynamic module invocations by module name and status code." "module"
      "code" toString snap.dynamic

def peerLe (a b : String × String × Bool) : Prop :=
  a.1 < b.1 ∨ a.1 = b.1 ∧ (a.2.1 < b.2.1 ∨ a.2.1 = b.2.1 ∧ a.2.2 ≤ b.2.2)

instance : DecidableRel peerLe := fun a b =>
  inferInstanceAs (Decidable (a.1 < b.1 ∨ a.1 = b.1 ∧ (a.2.1 < b.2.1 ∨ a.2.1 = b.2.1 ∧ a.2.2 ≤ b.2.2)))

def peerHealthy (peers : LivePeers) : String :=
  header "openrusty_peer_healthy" "Whether an upstream peer is currently healthy." "gauge"
    ++ String.join ((peers.insertionSort peerLe).map fun p =>
      series "openrusty_peer_healthy" [("upstream", escapeLabel p.1), ("addr", escapeLabel p.2.1)]
        (toString (if p.2.2 then 1 else 0)))

def kvEntries (kv : KvView) : String :=
  header "openrusty_kv_entries" "Live KV entries held by each plugin." "gauge"
    ++ String.join ((kv.insertionSort fun a b => a.1 ≤ b.1).map fun e =>
      series "openrusty_kv_entries" [("plugin", escapeLabel e.1)] (toString e.2))

def phaseSeries (phase : String) (h : PhaseHist φ) : String :=
  String.join ((phaseBuckets.zip h.buckets).map fun b =>
      series "openrusty_plugin_phase_seconds_bucket" [("phase", escapeLabel phase), ("le", b.1)] (toString b.2))
    ++ series "openrusty_plugin_phase_seconds_bucket" [("phase", escapeLabel phase), ("le", "+Inf")]
      (toString h.count)
    ++ series "openrusty_plugin_phase_seconds_sum" [("phase", escapeLabel phase)] (formatSum fmt h.sum)
    ++ series "openrusty_plugin_phase_seconds_count" [("phase", escapeLabel phase)] (toString h.count)

def pluginPhaseSeconds : String :=
  header "openrusty_plugin_phase_seconds" "Total wall time spent in each plugin phase per request." "histogram"
    ++ String.join ((snap.phases.entries.insertionSort fun a b => a.1 ≤ b.1).map fun e => phaseSeries fmt e.1 e.2)

def render (peers : LivePeers) (kv : KvView) (errors : ErrorView) : String :=
  requestsTotal snap ++ requestDurationSeconds fmt snap ++ upstreamAttemptsTotal snap
    ++ pluginErrorsTotal snap errors ++ transparentConnsTotal snap ++ dynamicRequestsTotal snap
    ++ peerHealthy peers ++ kvEntries kv ++ pluginPhaseSeconds fmt snap

end render

end Metrics

open Metrics

abbrev PluginMetrics := String × List (String × Nat) × Nat

/-- What the shared states have counted is `errorKinds`, the states themselves are `states`. -/
def PluginSnapshot.metricView {γ ω : Type} (plugins : PluginSnapshot γ ω)
    (errorKinds : Nat → AList fun _ : String => Nat) (states : List HostState) : List PluginMetrics :=
  plugins.plugins.map fun p =>
    (p.name, ((errorKinds p.state).entries.map fun e => (e.1, e.2)).insertionSort fun a b => a.1 ≤ b.1,
      (states[p.state]?.elim 0 fun s => s.kv.entries.length))

def upstreamPeers (health : HealthRegistry) (nowMs : Nat) (name : String) (peers : List Peer) : LivePeers :=
  peers.mapIdx fun i peer => (name, peer.addr.toString, health.isHealthy name i nowMs)

def livePeers (rt : RuntimeSnapshot) (health : HealthRegistry) (nowMs : Nat) : LivePeers :=
  (rt.upstreams.keys.insertionSort fun a b => a ≤ b).flatMap fun name =>
    match rt.upstreams.lookup name with
    | none => []
    | some up => upstreamPeers health nowMs name up.up.peers

def metricsEndpoint {φ : Type} (fmt : FloatFormat φ) (snap : MetricsSnapshot φ) (rt : RuntimeSnapshot)
    (health : HealthRegistry) (nowMs : Nat) (view : List PluginMetrics) : String :=
  let kv := view.map fun p => (p.1, p.2.2)
  let pluginErrors := view.flatMap fun p => p.2.1.map fun e => (p.1, e.1, e.2)
  render fmt snap (livePeers rt health nowMs) kv pluginErrors

end OpenRusty
