import OpenRusty.Server.Transparent.Basic

/-!
This module contains that sniffing does not depend on how the stream of the client is cut into reads, and
that it loses nothing: whoever reads the connection afterwards gets the stream from its first byte on.
-/

namespace OpenRusty

namespace Transparent

open Detect

section io

theorem head_prefixed_zero (head : Bytes) : (Io.prefixed head 0).head = head := by
  simp [Io.head]

theorem pollRead_eq {io io' : Io} {remaining : Nat} {inner inner' chunk : Bytes}
    (h : io.pollRead remaining inner = (chunk, io', inner'))
    : chunk ++ (io'.head ++ inner') = io.head ++ inner := by
  unfold Io.pollRead at h
  cases io with
  | plain =>
    cases h
    simp [Io.head]
  | prefixed head pos =>
    dsimp only at h
    split at h
    . cases h
      simp only [Io.head]
      rw [← List.append_assoc]
      congr 1
      rw [← List.drop_drop, List.take_append_drop]
    . next hpos =>
      cases h
      have hdrop : head.drop pos = [] := List.drop_eq_nil_of_le (Nat.le_of_not_lt hpos)
      simp [Io.head, hdrop]

theorem pollRead_ne_nil {io : Io} {remaining : Nat} {inner : Bytes} (hremaining : 0 < remaining)
    (h : io.head ++ inner ≠ [])
    : (io.pollRead remaining inner).1 ≠ [] := by
  have htake : ∀ bytes : Bytes, bytes ≠ [] → bytes.take remaining ≠ [] := by
    intro bytes hbytes htake
    rcases List.take_eq_nil_iff.mp htake with hzero | hnil
    . omega
    . exact hbytes hnil
  cases io with
  | plain => exact htake inner h
  | prefixed head pos =>
    unfold Io.pollRead
    dsimp only
    split
    . next hpos =>
      intro hnil
      have hlength := congrArg List.length hnil
      rw [List.length_take, List.length_drop, List.length_nil] at hlength
      omega
    . next hpos =>
      apply htake
      rw [Io.head, List.drop_eq_nil_of_le (Nat.le_of_not_lt hpos), List.nil_append] at h
      exact h

end io

section readBack

/-- A read into a buffer with some room, when a part of what is left of the stream has arrived. -/
structure Poll where
  room : Nat
  arrived : Nat
  deriving DecidableEq, Repr

structure ReadBack where
  got : Bytes
  io : Io
  unread : Bytes
  deriving DecidableEq, Repr

def readBack (io : Io) (unread : Bytes) (polls : List Poll) : ReadBack :=
  match polls with
  | [] => { got := [], io := io, unread := unread }
  | poll :: polls =>
    match io.pollRead poll.room (unread.take poll.arrived) with
    | (chunk, io, left) =>
      let back := readBack io (left ++ unread.drop poll.arrived) polls
      { back with got := chunk ++ back.got }

variable {io : Io} {unread : Bytes} {polls : List Poll}

theorem poll_eq {poll : Poll} {chunk left : Bytes} {io' : Io}
    (h : io.pollRead poll.room (unread.take poll.arrived) = (chunk, io', left))
    : chunk ++ (io'.head ++ (left ++ unread.drop poll.arrived)) = io.head ++ unread := by
  rw [← List.append_assoc io'.head, ← List.append_assoc chunk, pollRead_eq h, List.append_assoc,
    List.take_append_drop]

theorem readBack_eq (io : Io) (unread : Bytes) (polls : List Poll)
    : (readBack io unread polls).got ++ ((readBack io unread polls).io.head ++ (readBack io unread polls).unread)
        =
      io.head ++ unread := by
  induction polls generalizing io unread with
  | nil => rfl
  | cons poll polls ih =>
    rw [readBack]
    cases hread : io.pollRead poll.room (unread.take poll.arrived) with
    | mk chunk rest =>
      dsimp only
      rw [List.append_assoc, ih, poll_eq hread]

theorem take_arrived_ne_nil {arrived : Nat} (harrived : 0 < arrived) (h : io.head ++ unread ≠ [])
    : io.head ++ unread.take arrived ≠ [] := by
  intro hnil
  rcases List.append_eq_nil_iff.mp hnil with ⟨hhead, htake⟩
  rcases List.take_eq_nil_iff.mp htake with hzero | hunread
  . omega
  . exact h (by rw [hhead, hunread, List.append_nil])

theorem readBack_all (hpolls : ∀ poll ∈ polls, 0 < poll.room ∧ 0 < poll.arrived)
    (hlength : (io.head ++ unread).length ≤ polls.length)
    : (readBack io unread polls).got = io.head ++ unread := by
  induction polls generalizing io unread with
  | nil =>
    rw [List.eq_nil_of_length_eq_zero (Nat.le_zero.mp hlength)]
    rfl
  | cons poll polls ih =>
    obtain ⟨hroom, harrived⟩ := hpolls poll List.mem_cons_self
    rw [readBack]
    cases hread : io.pollRead poll.room (unread.take poll.arrived) with
    | mk chunk rest =>
      have hrest := poll_eq hread
      have hsum := congrArg List.length hrest
      rw [List.length_append] at hsum
      rw [List.length_cons] at hlength
      dsimp only
      rw [ih (fun poll hpoll => hpolls poll (List.mem_cons_of_mem _ hpoll)), hrest]
      by_cases hall : io.head ++ unread = []
      . rw [hall] at hsum
        rw [List.length_nil] at hsum
        omega
      . have hchunk := pollRead_ne_nil hroom (take_arrived_ne_nil harrived hall)
        rw [hread] at hchunk
        have hpos : 0 < chunk.length := List.length_pos_iff.mpr hchunk
        omega

end readBack

theorem sniff_lossless (stream : Bytes)
    : (∀ chunks : List Bytes, (∀ chunk ∈ chunks, chunk ≠ []) → chunks.flatten = stream →
        match classify stream with
        | .complete protocol => ∃ taken, detect [] (chunks.map .data ++ [.eof]) = .settled protocol taken
        | .incomplete => detect [] (chunks.map .data ++ [.eof]) = .failed (.unexpectedEof (eofReason stream)))
      ∧ (∀ protocol more, classify stream = .complete protocol → classify (stream ++ more) = .complete protocol)
      ∧ ∀ reads later protocol taken, reads.flatMap Read.bytes ++ later = stream →
        detect [] reads = .settled protocol taken →
          taken <+: stream ∧ ∀ polls,
            let back := readBack (.prefixed taken 0) (stream.drop taken.length) polls
            back.got ++ (back.io.head ++ back.unread) = stream
              ∧ (∀ room, 0 < room → (back.io.pollRead room back.unread).1 = [] → back.got = stream)
              ∧ ((∀ poll ∈ polls, 0 < poll.room ∧ 0 < poll.arrived) → stream.length ≤ polls.length →
                back.got = stream) := by
  refine ⟨?_, fun protocol more h => classify_append h more, ?_⟩
  . intro chunks _ hstream
    have hempty : classify [] = .incomplete := by decide
    obtain ⟨hcomplete, hincomplete⟩ := @detect_chunks [] chunks hempty
    rw [List.nil_append, hstream] at hcomplete hincomplete
    split
    . next protocol hclassify => exact hcomplete protocol hclassify
    . next hclassify => exact hincomplete hclassify
  . intro reads later protocol taken hstream hdetect
    have htaken : taken <+: stream := by
      rw [← hstream]
      exact (taken_prefix_of_detect hdetect).trans (List.prefix_append _ _)
    have hwhole : (Io.prefixed taken 0).head ++ stream.drop taken.length = stream := by
      rw [head_prefixed_zero]
      exact List.prefix_iff_eq_append.mp htaken
    refine ⟨htaken, fun polls => ?_⟩
    have heq := readBack_eq (.prefixed taken 0) (stream.drop taken.length) polls
    rw [hwhole] at heq
    refine ⟨heq, ?_, ?_⟩
    . intro room hroom hnil
      by_cases hrest : (readBack (.prefixed taken 0) (stream.drop taken.length) polls).io.head
          ++ (readBack (.prefixed taken 0) (stream.drop taken.length) polls).unread = []
      . rw [hrest, List.append_nil] at heq
        exact heq
      . exact absurd hnil (pollRead_ne_nil hroom hrest)
    . intro hpolls hlength
      rw [readBack_all hpolls (by rw [hwhole]; exact hlength), hwhole]

theorem sniff_lossless_stalled
    : detect [] [.data (asciiBytes "G"), .data (asciiBytes "E"), .eof]
          = .failed (.unexpectedEof (eofReason (asciiBytes "GE")))
        ∧ classify (asciiBytes "GET " ++ asciiBytes "/") = .complete .h1
        ∧ (readBack (.prefixed (asciiBytes "GE") 0) (asciiBytes "T /") [⟨1, 9⟩, ⟨4, 9⟩, ⟨4, 2⟩, ⟨4, 9⟩, ⟨4, 9⟩]).got
          = asciiBytes "GET /" := by
  refine ⟨?_, ?_, ?_⟩
  . exact (sniff_lossless (asciiBytes "GE")).1 [asciiBytes "G", asciiBytes "E"] (by decide) (by decide)
  . exact (sniff_lossless (asciiBytes "GET ")).2.1 .h1 (asciiBytes "/") (by decide)
  . have h := (sniff_lossless (asciiBytes "GET /")).2.2 [.data (asciiBytes "GE"), .deadline] (asciiBytes "T /")
      .opaqueBytes (asciiBytes "GE") (by decide) (by decide)
    exact (h.2 _).2.2 (by decide) (by decide)

end Transparent

end OpenRusty
