import Mathlib.Data.List.DropRight
import OpenRusty.Core.Context
import OpenRusty.K8s.Snapshot
import OpenRusty.Lib.Machine

/-!
This module contains the watch loop (`watch.rs`): LIST, replace the snapshot, watch, debounce, hand
the snapshot over. The loop is a machine whose inputs are the results of the requests, the frames and
the end of the stream, and the timers that fire. The decoding of a line into an event is a parameter.
-/

namespace OpenRusty

def backoffBase : Nat := 100

def backoffCap : Nat := 30 * 1000

def growBackoff (d : Nat) : Nat := min (2 * d) backoffCap

def newline : UInt8 := 10

def fromUtf8 (raw : Bytes) : Option String := String.fromUTF8? ⟨raw.toArray⟩

/-- The line read so far is `raw`, backwards. A line that is not UTF-8 drops the lines before it too. -/
def takeLines (buf : Bytes) : Option (List String) × Bytes := go [] buf
where
  go (raw : Bytes) (buf : Bytes) : Option (List String) × Bytes :=
    match buf with
    | [] => (some [], raw.reverse)
    | b :: buf =>
      if b = newline then
        match fromUtf8 raw.reverse with
        | some line =>
          match go [] buf with
          | (lines, rest) => (lines.map (String.ofList (line.toList.rdropWhile (· == '\r')) :: ·), rest)
        | none => (none, buf)
      else
        go (b :: raw) buf

structure WatchStats where
  generation : Nat := 0
  lists : Nat := 0
  reconnects : Nat := 0
  lastRv : String := ""
  deriving DecidableEq, Repr

inductive WatchPhase where
  | listing
  | opening
  | streaming
  deriving DecidableEq, Repr

structure WatchState (T : Type) where
  phase : WatchPhase
  backoff : Nat
  stats : WatchStats
  snap : Snapshot T
  restartRv : Option String
  dirty : Bool
  -- whether the debounce timer and the resync timer are armed
  deadline : Bool
  resyncAt : Bool
  buf : Bytes
  /-- What `on_snapshot` was called with last -/
  handed : Option (Snapshot T)

inductive WatchInput (T : Type) where
  | listed (items : List T) (resourceVersion : String)
  | listFailed
  | opened
  | openFailed
  | frame (data : Bytes)
  | streamError
  | streamEnd
  | deadline
  | resync
  deriving DecidableEq, Repr

namespace WatchState

variable {T : Type} [ResourceMeta T]

def init : WatchState T where
  phase := .listing
  backoff := backoffBase
  stats := {}
  snap := Snapshot.new
  restartRv := none
  dirty := true
  deadline := false
  resyncAt := false
  buf := []
  handed := none

def listed (resync : Bool) (s : WatchState T) (items : List T) (resourceVersion : String)
    : WatchState T :=
  let snap := Snapshot.replaceFromList items resourceVersion
  { s with
    phase := .opening
    backoff := backoffBase
    stats := { s.stats with lists := s.stats.lists + 1, lastRv := snap.resourceVersion }
    snap := snap
    restartRv := none
    dirty := s.restartRv.all fun rv => snap.resourceVersion != rv
    deadline := true
    resyncAt := resync
    buf := [] }

def reconnect (s : WatchState T) : WatchState T :=
  { s with
    phase := .listing
    backoff := growBackoff s.backoff
    stats := { s.stats with reconnects := s.stats.reconnects + 1 } }

/-- An unusable line gives `none`, and the stream has to be dropped. -/
def applyLine (parseLine : String → Option (WatchEvent T)) (s : WatchState T) (line : String)
    : Option (WatchState T) :=
  match parseLine line with
  | none => none
  | some event =>
    if event.eventType = .error then
      none
    else
      let s := { s with snap := s.snap.applyEvent event }
      if event.eventType = .bookmark then
        some s
      else
        some { s with dirty := true, deadline := true }

def applyLines (parseLine : String → Option (WatchEvent T)) (s : WatchState T)
    (lines : List String)
    : WatchState T :=
  match lines with
  | [] => s
  | line :: lines =>
    match s.applyLine parseLine line with
    | some s => s.applyLines parseLine lines
    | none => s.reconnect

def frame (parseLine : String → Option (WatchEvent T)) (s : WatchState T) (data : Bytes)
    : WatchState T :=
  match takeLines (s.buf ++ data) with
  | (some lines, buf) => applyLines parseLine { s with buf := buf } lines
  | (none, buf) => reconnect { s with buf := buf }

def fireDeadline (s : WatchState T) : WatchState T :=
  if s.dirty then
    { s with
      stats := { s.stats with
        generation := s.stats.generation + 1
        lastRv := s.snap.resourceVersion }
      handed := some s.snap
      dirty := false
      deadline := false }
  else
    { s with deadline := false }

def fireResync (s : WatchState T) : WatchState T :=
  { s with phase := .listing, restartRv := some s.snap.resourceVersion }

def step (resync : Bool) (parseLine : String → Option (WatchEvent T)) (s : WatchState T)
    (input : WatchInput T)
    : Option (WatchState T) :=
  match s.phase, input with
  | .listing, .listed items resourceVersion => some (s.listed resync items resourceVersion)
  | .listing, .listFailed => some { s with backoff := growBackoff s.backoff }
  | .opening, .opened => some { s with phase := .streaming }
  | .opening, .openFailed => some s.reconnect
  | .streaming, .frame data => some (s.frame parseLine data)
  | .streaming, .streamError => some s.reconnect
  | .streaming, .streamEnd => some s.reconnect
  | .streaming, .deadline => if s.deadline then some s.fireDeadline else none
  | .streaming, .resync => if s.resyncAt then some s.fireResync else none
  | _, _ => none

end WatchState

end OpenRusty
