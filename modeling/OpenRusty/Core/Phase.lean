/-!
This module contains the phases of a request and the decisions that plugins take in them
(`phase.rs`), with the codes that stand for the decisions on the plugin boundary.
-/

namespace OpenRusty

inductive Phase where
  | postRead
  | rewrite
  | access
  | content
  | balancer
  | headerFilter
  | bodyFilter
  | log
  deriving DecidableEq, Repr

namespace Phase

def all : List Phase :=
  [.postRead, .rewrite, .access, .content, .balancer, .headerFilter, .bodyFilter, .log]

def name (phase : Phase) : String :=
  match phase with
  | .postRead => "post_read"
  | .rewrite => "rewrite"
  | .access => "access"
  | .content => "content"
  | .balancer => "balancer"
  | .headerFilter => "header_filter"
  | .bodyFilter => "body_filter"
  | .log => "log"

end Phase

inductive Decision where
  | ok
  | declined
  | done
  | deny (status : Nat)
  deriving DecidableEq, Repr

namespace Decision

def fromAbi (code : Int) : Option Decision :=
  if code = 0 then
    some .ok
  else if code = -5 then
    some .declined
  else if code = -4 then
    some .done
  else if 100 ≤ code ∧ code ≤ 599 then
    some (.deny code.toNat)
  else
    none

theorem range_of_fromAbi {code : Int} {status : Nat} (h : fromAbi code = some (.deny status))
    : 100 ≤ status ∧ status ≤ 599 := by
  unfold fromAbi at h
  split at h
  . cases h
  . split at h
    . cases h
    . split at h
      . cases h
      . split at h
        . cases h
          omega
        . cases h

def isTerminal (d : Decision) : Bool :=
  match d with
  | .done => true
  | .deny _ => true
  | _ => false

end Decision

inductive FailPolicy where
  | failOpen
  | failClosed
  deriving DecidableEq, Repr

end OpenRusty
