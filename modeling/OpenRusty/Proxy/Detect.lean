import OpenRusty.Core.Context

/-!
This module contains the detection of the protocol that a client speaks on an intercepted connection
(`detect.rs`) and the loop guard (`loop_guard.rs`).
-/

namespace OpenRusty

namespace Detect

def asciiBytes (s : String) : Bytes := s.toList.map fun c => UInt8.ofNat c.toNat

def h2Prefix : Bytes := asciiBytes "PRI *"

def h1Methods : List Bytes :=
  ["GET", "POST", "PUT", "DELETE", "HEAD", "OPTIONS", "PATCH", "CONNECT", "TRACE"].map asciiBytes

def readChunk : Nat := 16

def space : UInt8 := 32

inductive Protocol where
  | h1
  | h2
  | opaqueBytes
  deriving DecidableEq, Repr

inductive Decision where
  | complete (protocol : Protocol)
  | incomplete
  deriving DecidableEq, Repr

def classifyMethods (buf : Bytes) (methods : List Bytes) : Decision :=
  match methods with
  | [] => .complete .opaqueBytes
  | method :: methods =>
    if method.isPrefixOf buf then
      match buf[method.length]? with
      | some byte => if byte = space then .complete .h1 else .complete .opaqueBytes
      | none => .incomplete
    else if buf.isPrefixOf method then
      .incomplete
    else
      classifyMethods buf methods

def classify (buf : Bytes) : Decision :=
  if h2Prefix.isPrefixOf buf then
    .complete .h2
  else if buf.isPrefixOf h2Prefix then
    .incomplete
  else if (asciiBytes "PRI ").isPrefixOf buf then
    .complete .opaqueBytes
  else
    classifyMethods buf h1Methods

inductive IoError where
  | unexpectedEof (reason : String)
  | other
  deriving DecidableEq, Repr

/-- What the next round of the detection waits for, whichever comes first. -/
inductive Read where
  | deadline
  | data (chunk : Bytes)
  | eof
  | error
  deriving DecidableEq, Repr

inductive Probe where
  | reading (buf : Bytes)
  | settled (protocol : Protocol) (buf : Bytes)
  | failed (e : IoError)
  deriving DecidableEq, Repr

def detectStep (buf : Bytes) (read : Read) : Probe :=
  match read with
  | .deadline => .settled .opaqueBytes buf
  | .error => .failed .other
  | .eof =>
    if buf.isEmpty then
      .failed (.unexpectedEof "peer closed before sending any bytes")
    else
      .failed (.unexpectedEof "peer closed with the protocol prefix incomplete")
  | .data chunk =>
    match classify (buf ++ chunk) with
    | .complete protocol => .settled protocol (buf ++ chunk)
    | .incomplete => .reading (buf ++ chunk)

def Read.bytes (read : Read) : Bytes :=
  match read with
  | .data chunk => chunk
  | _ => []

theorem detectStep_cases (buf : Bytes) (read : Read)
    : detectStep buf read = .reading (buf ++ read.bytes)
        ∨
      (∃ protocol, detectStep buf read = .settled protocol (buf ++ read.bytes))
        ∨
      ∃ e, detectStep buf read = .failed e := by
  unfold detectStep Read.bytes
  cases read with
  | deadline =>
    right
    left
    exact ⟨_, by rw [List.append_nil]⟩
  | error =>
    right
    right
    exact ⟨_, rfl⟩
  | eof =>
    right
    right
    by_cases hbuf : buf.isEmpty = true
    . exact ⟨_, if_pos hbuf⟩
    . exact ⟨_, if_neg hbuf⟩
  | data chunk =>
    dsimp only
    cases classify (buf ++ chunk) with
    | complete protocol =>
      right
      left
      exact ⟨protocol, rfl⟩
    | incomplete =>
      left
      rfl

def detect (buf : Bytes) (reads : List Read) : Probe :=
  match reads with
  | [] => .reading buf
  | read :: reads =>
    match detectStep buf read with
    | .reading buf => detect buf reads
    | probe => probe

section append

variable {buf : Bytes} {protocol : Protocol}

theorem not_prefix_append {α : Type} {a b : List α} (h : ¬a <+: b) (h' : ¬b <+: a) (c : List α) : ¬a <+: b ++ c := by
  intro hc
  rcases List.prefix_or_prefix_of_prefix hc (List.prefix_append b c) with hab | hba
  . exact h hab
  . exact h' hba

theorem classifyMethods_append {methods : List Bytes} (h : classifyMethods buf methods = .complete protocol)
    (more : Bytes)
    : classifyMethods (buf ++ more) methods = .complete protocol := by
  induction methods with
  | nil => exact h
  | cons method methods ih =>
    unfold classifyMethods at h ⊢
    simp only [List.isPrefixOf_iff_prefix] at h ⊢
    split at h
    . next hmethod =>
      rw [if_pos (hmethod.trans (List.prefix_append buf more))]
      split at h
      . next byte hbyte =>
        rw [List.getElem?_append_left (List.getElem?_eq_some_iff.mp hbyte).1, hbyte]
        exact h
      . cases h
    . next hmethod =>
      split at h
      . cases h
      . next hbuf =>
        rw [if_neg (not_prefix_append hmethod hbuf more),
          if_neg fun hmore => hbuf ((List.prefix_append buf more).trans hmore)]
        exact ih h

theorem classify_append (h : classify buf = .complete protocol) (more : Bytes)
    : classify (buf ++ more) = .complete protocol := by
  unfold classify at h ⊢
  simp only [List.isPrefixOf_iff_prefix] at h ⊢
  split at h
  . next h2 =>
    rw [if_pos (h2.trans (List.prefix_append buf more))]
    exact h
  . next h2 =>
    split at h
    . cases h
    . next hbuf =>
      rw [if_neg (not_prefix_append h2 hbuf more),
        if_neg fun hmore => hbuf ((List.prefix_append buf more).trans hmore)]
      split at h
      . next hpri =>
        rw [if_pos (hpri.trans (List.prefix_append buf more))]
        exact h
      . next hpri =>
        have hshort : asciiBytes "PRI " <+: h2Prefix := by decide
        rw [if_neg (not_prefix_append hpri (fun hbuf' => hbuf (hbuf'.trans hshort)) more)]
        exact classifyMethods_append h more

end append

section detect

variable {buf taken : Bytes} {protocol : Protocol} {reads : List Read}

def eofReason (buf : Bytes) : String :=
  if buf.isEmpty then
    "peer closed before sending any bytes"
  else
    "peer closed with the protocol prefix incomplete"

theorem detectStep_eof (buf : Bytes) : detectStep buf .eof = .failed (.unexpectedEof (eofReason buf)) := by
  unfold detectStep eofReason
  cases buf with
  | nil => rfl
  | cons b buf => rfl

theorem detect_chunks {chunks : List Bytes} (hbuf : classify buf = .incomplete)
    : (∀ protocol, classify (buf ++ chunks.flatten) = .complete protocol →
        ∃ taken, detect buf (chunks.map .data ++ [.eof]) = .settled protocol taken)
      ∧ (classify (buf ++ chunks.flatten) = .incomplete →
        detect buf (chunks.map .data ++ [.eof])
          = .failed (.unexpectedEof (eofReason (buf ++ chunks.flatten)))) := by
  induction chunks generalizing buf with
  | nil =>
    rw [List.flatten_nil, List.append_nil, List.map_nil, List.nil_append, detect, detectStep_eof, hbuf]
    constructor
    . intro protocol h
      cases h
    . intro _
      rfl
  | cons chunk chunks ih =>
    rw [List.flatten_cons, ← List.append_assoc, List.map_cons, List.cons_append, detect, detectStep]
    cases hchunk : classify (buf ++ chunk) with
    | complete protocol =>
      rw [classify_append hchunk]
      constructor
      . intro protocol' h
        cases h
        exact ⟨_, rfl⟩
      . intro h
        cases h
    | incomplete => exact ih hchunk

theorem taken_prefix_of_detect (h : detect buf reads = .settled protocol taken)
    : taken <+: buf ++ reads.flatMap Read.bytes := by
  induction reads generalizing buf with
  | nil => cases h
  | cons read reads ih =>
    rw [detect] at h
    rw [List.flatMap_cons, ← List.append_assoc]
    rcases detectStep_cases buf read with hstep | ⟨protocol', hstep⟩ | ⟨e, hstep⟩
    . rw [hstep] at h
      exact ih h
    . rw [hstep] at h
      cases h
      exact List.prefix_append _ _
    . rw [hstep] at h
      cases h

end detect

/-- Only ports are compared: no address tells the gateway's own sockets apart after NAT. -/
def isLoopback (originalDst : SocketAddr) (ownPorts : List (BitVec 16)) : Bool :=
  ownPorts.contains originalDst.port

section isHttp

def IsHttp (stream : Bytes) : Prop :=
  h2Prefix <+: stream ∨ ∃ method ∈ h1Methods, method ++ [space] <+: stream

theorem IsHttp.append {stream : Bytes} (h : IsHttp stream) (rest : Bytes) : IsHttp (stream ++ rest) := by
  rcases h with h2 | ⟨method, hmethod, h1⟩
  . exact .inl (h2.trans (List.prefix_append _ _))
  . exact .inr ⟨method, hmethod, h1.trans (List.prefix_append _ _)⟩

theorem classifyMethods_h1 {buf : Bytes} {methods : List Bytes} {protocol : Protocol}
    (h : classifyMethods buf methods = .complete protocol) (hne : protocol ≠ .opaqueBytes)
    : ∃ method ∈ methods, method ++ [space] <+: buf := by
  induction methods with
  | nil =>
    cases h
    exact absurd rfl hne
  | cons method methods ih =>
    unfold classifyMethods at h
    split at h
    . next hmethod =>
      rcases List.isPrefixOf_iff_prefix.mp hmethod with ⟨rest, rfl⟩
      split at h
      . next byte hbyte =>
        split at h
        . next hspace =>
          subst hspace
          refine ⟨method, List.mem_cons_self, ?_⟩
          rw [List.prefix_append_right_inj]
          rw [List.getElem?_append_right (Nat.le_refl _), Nat.sub_self] at hbyte
          cases rest with
          | nil => cases hbyte
          | cons b rest =>
            cases hbyte
            exact ⟨rest, rfl⟩
        . cases h
          exact absurd rfl hne
      . cases h
    . split at h
      . cases h
      . rcases ih h with ⟨method', hmem, hprefix⟩
        exact ⟨method', List.mem_cons_of_mem _ hmem, hprefix⟩

theorem isHttp_of_classify {buf : Bytes} {protocol : Protocol} (h : classify buf = .complete protocol)
    (hne : protocol ≠ .opaqueBytes)
    : IsHttp buf := by
  unfold classify at h
  split at h
  . next h2 => exact .inl (List.isPrefixOf_iff_prefix.mp h2)
  . split at h
    . cases h
    . split at h
      . cases h
        exact absurd rfl hne
      . exact .inr (classifyMethods_h1 h hne)

theorem isHttp_of_settled {buf taken : Bytes} {read : Read} {protocol : Protocol}
    (h : detectStep buf read = .settled protocol taken) (hne : protocol ≠ .opaqueBytes)
    : IsHttp taken := by
  unfold detectStep at h
  split at h
  . cases h
    exact absurd rfl hne
  . cases h
  . split at h <;> cases h
  . split at h
    . next hclassify =>
      cases h
      exact isHttp_of_classify hclassify hne
    . cases h

end isHttp

end Detect

end OpenRusty
