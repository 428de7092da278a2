import Mathlib.Algebra.GroupWithZero.Nat
import OpenRusty.Core.Http
import OpenRusty.Server.BodyFilter

/-!
This module contains what the client and the access log get of a proxied response (`body_filter.rs`),
and the order of the phases over the whole life of its body. Between two polls anything can happen to the
world of the modules.
-/

namespace OpenRusty

inductive BodyFrame where
  | data (chunk : Bytes)
  | trailers (headers : HeaderMap)
  deriving DecidableEq, Repr

/-- What polling a body gives. The body of the peer and the one that the client reads give the same. -/
inductive PollResult where
  | pending
  | frame (frame : BodyFrame)
  | error (message : String)
  | ended
  deriving DecidableEq, Repr

namespace PollResult

def polled (r : PollResult) : Polled :=
  match r with
  | .pending => .pending
  | .frame (.data chunk) => .data chunk
  | .frame (.trailers _) => .trailers
  | .error _ => .error
  | .ended => .ended

def ends (r : PollResult) : Bool :=
  match r with
  | .error _ => true
  | .ended => true
  | _ => false

def chunk (r : PollResult) : Option Bytes :=
  match r with
  | .frame (.data chunk) => some chunk
  | _ => none

end PollResult

structure AccessLine where
  status : Nat
  peer : String
  bytes : Nat
  deriving DecidableEq, Repr

structure StreamedBody (γ ω : Type) where
  body : FilteredBody γ ω
  status : Nat
  peer : String

structure Turn (ω : Type) where
  others : World ω → World ω
  inner : PollResult

structure Streamed (γ ω : Type) where
  answers : List PollResult
  logged : List AccessLine
  exchange : Exchange γ ω
  world : World ω

namespace StreamedBody

variable {γ ω : Type}

def new (exchange : Exchange γ ω) (status : Nat) (peer : String) : StreamedBody γ ω :=
  { body := { exchange := exchange }, status := status, peer := peer }

def accessLine (b : StreamedBody γ ω) : List AccessLine :=
  if b.body.logDone then [] else [{ status := b.status, peer := b.peer, bytes := b.body.bytes }]

def pollFrame (b : StreamedBody γ ω) (inner : PollResult) (w : World ω)
    : PollResult × List AccessLine × StreamedBody γ ω × World ω :=
  match b.body.pollFrame inner.polled w with
  | (body, w) =>
    if b.body.inner then
      (inner, if inner.ends then b.accessLine else [], { b with body := body }, w)
    else
      (.ended, [], { b with body := body }, w)

def serve (b : StreamedBody γ ω) (turns : List (Turn ω)) (others : World ω → World ω) (w : World ω)
    : Streamed γ ω :=
  match turns with
  | [] =>
    match b.body.drop (others w) with
    | (body, w) => { answers := [], logged := b.accessLine, exchange := body.exchange, world := w }
  | turn :: turns =>
    match b.pollFrame turn.inner (turn.others w) with
    | (answer, logged, b, w) =>
      let rest := serve b turns others w
      { rest with answers := answer :: rest.answers, logged := logged ++ rest.logged }

end StreamedBody

section calls

variable {γ ω : Type}

inductive PhaseCall where
  | bodyFilter (chunk : Bytes) (last : Bool)
  | log
  deriving DecidableEq, Repr

namespace PhaseCall

def phase (c : PhaseCall) : Phase :=
  match c with
  | .bodyFilter _ _ => .bodyFilter
  | .log => .log

/-- What the modules find in the session: the chunk, and whether it is the last one. -/
def presented (c : PhaseCall) (s : RequestSession γ ω) : RequestSession γ ω :=
  match c with
  | .bodyFilter chunk last => { s with state := { s.state with bodyChunk := chunk, bodyLast := last } }
  | .log => s

def drained (c : PhaseCall) (s : RequestSession γ ω) : RequestSession γ ω :=
  match c with
  | .bodyFilter _ _ => s
  | .log => { s with state := { s.state with phaseCalls := fun _ => 0 } }

def exec (c : PhaseCall) (s : RequestSession γ ω) (w : World ω) : RequestSession γ ω × World ω :=
  match (c.presented s).runPhase c.phase w with
  | (_, s, w) => (c.drained s, w)

def execAll (cs : List PhaseCall) (s : RequestSession γ ω) (w : World ω) : RequestSession γ ω × World ω :=
  match cs with
  | [] => (s, w)
  | c :: cs =>
    match c.exec s w with
    | (s, w) => execAll cs s w

def script (turns : List ((World ω → World ω) × List PhaseCall)) (s : RequestSession γ ω) (w : World ω)
    : RequestSession γ ω × World ω :=
  match turns with
  | [] => (s, w)
  | (others, cs) :: turns =>
    match execAll cs s (others w) with
    | (s, w) => script turns s w

end PhaseCall

namespace Exchange

def calls (x : Exchange γ ω) (cs : List PhaseCall) (w : World ω) : Exchange γ ω × World ω :=
  ({ session := (PhaseCall.execAll cs x.session w).1, ran := x.ran ++ cs.map PhaseCall.phase },
    (PhaseCall.execAll cs x.session w).2)

def script (x : Exchange γ ω) (turns : List ((World ω → World ω) × List PhaseCall)) (w : World ω)
    : Exchange γ ω × World ω :=
  ({ session := (PhaseCall.script turns x.session w).1, ran := x.ran ++ (turns.flatMap Prod.snd).map PhaseCall.phase },
    (PhaseCall.script turns x.session w).2)

theorem calls_nil (x : Exchange γ ω) (w : World ω) : x.calls [] w = (x, w) := by
  simp [calls, PhaseCall.execAll]

theorem runFilter_eq (x : Exchange γ ω) (chunk : Bytes) (last : Bool) (w : World ω)
    : x.runFilter chunk last w = x.calls [.bodyFilter chunk last] w := by
  rfl

theorem runLog_eq (x : Exchange γ ω) (w : World ω) : x.runLog w = x.calls [.log] w := by
  rfl

theorem calls_cons (x : Exchange γ ω) (c : PhaseCall) (cs : List PhaseCall) (w : World ω)
    : x.calls (c :: cs) w = (x.calls [c] w).1.calls cs (x.calls [c] w).2 := by
  simp [calls, PhaseCall.execAll]

theorem script_nil (x : Exchange γ ω) (w : World ω) : x.script [] w = (x, w) := by
  simp [script, PhaseCall.script]

theorem script_cons (x : Exchange γ ω) (others : World ω → World ω) (cs : List PhaseCall)
    (turns : List ((World ω → World ω) × List PhaseCall)) (w : World ω)
    : x.script ((others, cs) :: turns) w
        = (x.calls cs (others w)).1.script turns (x.calls cs (others w)).2 := by
  simp [script, calls, PhaseCall.script]

end Exchange

def relayed (inner : List PollResult) : List PollResult :=
  match inner with
  | [] => []
  | r :: inner => if r.ends then r :: inner.map fun _ => .ended else r :: relayed inner

def chunks (answers : List PollResult) : List Bytes := answers.filterMap PollResult.chunk

def PollResult.calls (r : PollResult) : List PhaseCall := r.chunk.toList.map fun chunk => .bodyFilter chunk false

theorem PollResult.chunk_of_ends {r : PollResult} (h : r.ends = true) : r.chunk = none := by
  cases r with
  | frame f => cases h
  | pending => rfl
  | error message => rfl
  | ended => rfl

theorem chunks_cons (r : PollResult) (answers : List PollResult)
    : chunks (r :: answers) = r.chunk.toList ++ chunks answers := by
  unfold chunks
  cases h : r.chunk with
  | none => rw [List.filterMap_cons_none h]; rfl
  | some chunk => rw [List.filterMap_cons_some h]; rfl

def closing : List PhaseCall := [.bodyFilter [] true, .log]

end calls

section serve

variable {γ ω : Type} (b : StreamedBody γ ω) (turns : List (Turn ω)) (others : World ω → World ω) (w : World ω)

namespace StreamedBody

structure Streaming (b : StreamedBody γ ω) : Prop where
  inner : b.body.inner = true
  lastSent : b.body.lastSent = false
  logDone : b.body.logDone = false

structure Finalized (b : StreamedBody γ ω) : Prop where
  inner : b.body.inner = false
  lastSent : b.body.lastSent = true
  logDone : b.body.logDone = true

def line (bytes : Nat) : AccessLine := { status := b.status, peer := b.peer, bytes := bytes }

variable {b}

theorem finalize_of_not_done (body : FilteredBody γ ω) (hlast : body.lastSent = false) (hlog : body.logDone = false)
    : body.finalize w
        =
      ({ body with exchange := (body.exchange.calls closing w).1, lastSent := true, logDone := true },
        (body.exchange.calls closing w).2) := by
  unfold FilteredBody.finalize FilteredBody.sendLast FilteredBody.log
  rw [hlast, if_neg (by decide)]
  dsimp only
  rw [hlog, if_neg (by decide), Exchange.runFilter_eq, Exchange.runLog_eq, closing, Exchange.calls_cons _ _ [.log]]

theorem drop_of_streaming (h : b.Streaming)
    : b.body.drop w
        =
      ({ b.body with exchange := (b.body.exchange.calls closing w).1, lastSent := true, logDone := true },
        (b.body.exchange.calls closing w).2) :=
  finalize_of_not_done w b.body h.lastSent h.logDone

theorem accessLine_of_streaming (h : b.Streaming) : b.accessLine = [b.line b.body.bytes] := by
  rw [accessLine, h.logDone, if_neg (by decide)]
  rfl

theorem pollFrame_of_ends (h : b.Streaming) {inner : PollResult} (hends : inner.ends = true)
    : ∃ b', b'.Finalized ∧ b'.body.exchange = (b.body.exchange.calls closing w).1
        ∧ b.pollFrame inner w
          =
        (inner, [b.line b.body.bytes], b', (b.body.exchange.calls closing w).2) := by
  have hpoll : b.body.pollFrame inner.polled w = FilteredBody.finalize { b.body with inner := false } w := by
    unfold FilteredBody.pollFrame
    rw [if_pos h.inner]
    cases inner with
    | pending => cases hends
    | frame f => cases hends
    | error message => rfl
    | ended => rfl
  replace hpoll := hpoll.trans (finalize_of_not_done w { b.body with inner := false } h.lastSent h.logDone)
  let closed : FilteredBody γ ω :=
    { b.body with
      inner := false
      exchange := (b.body.exchange.calls closing w).1
      lastSent := true
      logDone := true }
  refine ⟨{ b with body := closed }, ⟨rfl, rfl, rfl⟩, rfl, ?_⟩
  rw [pollFrame, hpoll]
  dsimp only
  rw [h.inner, if_pos rfl, hends, if_pos rfl, accessLine_of_streaming h]

theorem pollFrame_of_not_ends (h : b.Streaming) {inner : PollResult} (hends : inner.ends = false)
    : ∃ b', b'.Streaming ∧ b'.line = b.line ∧ b'.body.bytes = b.body.bytes + (inner.chunk.toList.map List.length).sum
        ∧ b'.body.exchange = (b.body.exchange.calls inner.calls w).1
        ∧ b.pollFrame inner w = (inner, [], b', (b.body.exchange.calls inner.calls w).2) := by
  have hnone : inner.calls = [] → b.body.exchange.calls inner.calls w = (b.body.exchange, w) := by
    intro hcalls
    rw [hcalls, Exchange.calls_nil]
  unfold pollFrame FilteredBody.pollFrame
  rw [h.inner, hends]
  cases inner with
  | pending =>
    rw [hnone rfl]
    exact ⟨b, h, rfl, rfl, rfl, rfl⟩
  | frame f =>
    cases f with
    | data chunk =>
      let body : FilteredBody γ ω :=
        { b.body with
          inner := true
          exchange := (b.body.exchange.runFilter chunk false w).1
          bytes := b.body.bytes + chunk.length }
      refine ⟨{ b with body := body }, ⟨rfl, h.lastSent, h.logDone⟩, rfl, ?_, rfl, ?_⟩
      . simp [body, PollResult.chunk]
      . rfl
    | trailers headers =>
      rw [hnone rfl]
      exact ⟨b, h, rfl, rfl, rfl, rfl⟩
  | error message => cases hends
  | ended => cases hends

theorem pollFrame_of_finalized (h : b.Finalized) (inner : PollResult) : b.pollFrame inner w = (.ended, [], b, w) := by
  unfold pollFrame FilteredBody.pollFrame
  rw [h.inner]
  rfl

theorem serve_cons {turn : Turn ω} {answer : PollResult} {logged : List AccessLine} {b' : StreamedBody γ ω}
    {w' : World ω} (hpoll : b.pollFrame turn.inner (turn.others w) = (answer, logged, b', w'))
    : b.serve (turn :: turns) others w
        =
      { b'.serve turns others w' with
        answers := answer :: (b'.serve turns others w').answers
        logged := logged ++ (b'.serve turns others w').logged } := by
  rw [serve, hpoll]

theorem serve_of_finalized (h : b.Finalized)
    : (b.serve turns others w).answers = turns.map (fun _ => .ended) ∧ (b.serve turns others w).logged = []
        ∧ ((b.serve turns others w).exchange, (b.serve turns others w).world)
          = b.body.exchange.script ((turns.map Turn.others ++ [others]).map fun others => (others, [])) w := by
  induction turns generalizing w with
  | nil =>
    have hdrop : b.body.drop (others w) = (b.body, others w) := by
      unfold FilteredBody.drop FilteredBody.finalize FilteredBody.sendLast FilteredBody.log
      rw [h.lastSent, if_pos rfl]
      dsimp only
      rw [h.logDone, if_pos rfl]
    unfold serve
    rw [hdrop, accessLine, h.logDone]
    refine ⟨rfl, rfl, ?_⟩
    change _ = b.body.exchange.script [(others, [])] w
    rw [Exchange.script_cons, Exchange.calls_nil, Exchange.script_nil]
  | cons turn turns ih =>
    rcases ih (turn.others w) with ⟨hanswers, hlogged, hscript⟩
    rw [serve_cons turns others w (pollFrame_of_finalized _ h turn.inner)]
    refine ⟨?_, hlogged, ?_⟩
    . rw [List.map_cons, ← hanswers]
    . rw [List.map_cons, List.cons_append, List.map_cons, Exchange.script_cons, Exchange.calls_nil]
      exact hscript

theorem serve_of_streaming (h : b.Streaming)
    : (b.serve turns others w).answers = relayed (turns.map Turn.inner)
        ∧ (b.serve turns others w).logged
          = [b.line (b.body.bytes + ((chunks (relayed (turns.map Turn.inner))).map List.length).sum)]
        ∧ ∃ calls : List (List PhaseCall), calls.length = turns.length + 1
          ∧ calls.flatten = (chunks (relayed (turns.map Turn.inner))).map (.bodyFilter · false) ++ closing
          ∧ ((b.serve turns others w).exchange, (b.serve turns others w).world)
            = b.body.exchange.script ((turns.map Turn.others ++ [others]).zip calls) w := by
  induction turns generalizing b w with
  | nil =>
    unfold serve
    rw [drop_of_streaming _ h, accessLine_of_streaming h]
    exact ⟨rfl, rfl, [closing], rfl, rfl, rfl⟩
  | cons turn turns ih =>
    rw [List.map_cons, List.map_cons, List.cons_append, relayed]
    cases hends : turn.inner.ends with
    | true =>
      -- The body is finalized here, and no later turn calls a filter.
      rcases pollFrame_of_ends (turn.others w) h hends with ⟨b', hb', hexchange, hpoll⟩
      rcases serve_of_finalized turns others (b.body.exchange.calls closing (turn.others w)).2 hb' with
        ⟨hanswers, hlogged, hscript⟩
      have hchunks : chunks (turn.inner :: (turns.map Turn.inner).map fun _ => .ended) = [] := by
        rw [chunks_cons, PollResult.chunk_of_ends hends]
        simp [chunks, PollResult.chunk]
      rw [if_pos rfl, hchunks, serve_cons turns others w hpoll]
      refine ⟨?_, ?_, closing :: (turns.map Turn.others ++ [others]).map fun _ => [], ?_, ?_, ?_⟩
      . rw [hanswers, List.map_map]
        rfl
      . rw [hlogged]
        rfl
      . simp
      . simp
      . have hzip := List.zip_map' (f := id) (g := fun _ => ([] : List PhaseCall)) (l := turns.map Turn.others ++ [others])
        rw [List.map_id] at hzip
        rw [hscript, hexchange, List.zip_cons_cons, hzip, Exchange.script_cons]
        rfl
    | false =>
      rcases pollFrame_of_not_ends (turn.others w) h hends with ⟨b', hb', hline, hbytes, hexchange, hpoll⟩
      rcases ih (b.body.exchange.calls turn.inner.calls (turn.others w)).2 hb' with
        ⟨hanswers, hlogged, calls, hlength, hcalls, hscript⟩
      rw [if_neg (by decide), chunks_cons, serve_cons turns others w hpoll]
      refine ⟨?_, ?_, turn.inner.calls :: calls, ?_, ?_, ?_⟩
      . rw [hanswers]
      . rw [hlogged, hline, hbytes, List.map_append, List.sum_append, Nat.add_assoc]
        rfl
      . simp [hlength]
      . rw [List.flatten_cons, hcalls, List.map_append, List.append_assoc]
        rfl
      . rw [hscript, hexchange, List.zip_cons_cons, Exchange.script_cons]

/--
One filter call for each chunk, one for the end and then the log, at whatever point the body ends: the phases have
run in this order, and the session and the world are what these calls make of them.
-/
theorem body_sequence (exchange : Exchange γ ω) (status : Nat) (peer : String)
    : let s := (StreamedBody.new exchange status peer).serve turns others w
      s.answers = relayed (turns.map Turn.inner)
        ∧ s.logged = [{ status := status, peer := peer, bytes := ((chunks s.answers).map List.length).sum }]
        ∧ ∃ calls : List (List PhaseCall), calls.length = turns.length + 1
          ∧ calls.flatten = (chunks s.answers).map (.bodyFilter · false) ++ [.bodyFilter [] true, .log]
          ∧ s.exchange.ran = exchange.ran ++ calls.flatten.map PhaseCall.phase
          ∧ (s.exchange.session, s.world)
            = PhaseCall.script ((turns.map Turn.others ++ [others]).zip calls) exchange.session w := by
  intro s
  have h : (StreamedBody.new exchange status peer).Streaming := ⟨rfl, rfl, rfl⟩
  rcases serve_of_streaming turns others w h with ⟨hanswers, hlogged, calls, hlength, hcalls, hscript⟩
  have hsnd : ((turns.map Turn.others ++ [others]).zip calls).flatMap Prod.snd = calls.flatten := by
    rw [List.flatMap_def, List.map_snd_zip]
    simp [hlength]
  rw [hanswers]
  refine ⟨rfl, ?_, calls, hlength, hcalls, ?_, ?_⟩
  . rw [hlogged, line, new, Nat.zero_add]
  . rw [← hsnd]
    exact congrArg (fun x => x.1.ran) hscript
  . exact congrArg (fun x => (x.1.session, x.2)) hscript

end StreamedBody

end serve

def recorder : WasmModule Unit (List (Phase × Bytes × Bool)) where
  instantiate _ hd outside := (.ok ((), hd), outside)
  onPhase phase _ _ hd outside := (.ok 0, (), hd, outside ++ [(phase, hd.bodyChunk, hd.bodyLast)])

def recorderPlugin : LoadedPlugin Unit (List (Phase × Bytes × Bool)) where
  name := "recorder"
  module := recorder
  settings := []
  timeout := 50
  failPolicy := .failOpen
  memoryMb := 16

example
    : ((StreamedBody.new { session := .new [recorderPlugin] .empty [] } 200 "10.0.0.1:80").serve
        [⟨id, .frame (.data [1, 2])⟩, ⟨id, .pending⟩, ⟨id, .frame (.data [3])⟩] id
        { outside := [], errors := ∅ }).world.outside
      = [(.bodyFilter, [1, 2], false), (.bodyFilter, [3], false), (.bodyFilter, [], true), (.log, [], true)] := by
  decide

end OpenRusty
