import OpenRusty.Lib.Word

/-!
This module contains the choice of the node that a task goes to (`sched.rs` of the SDK): of the healthy nodes
under their cap the one with the fewest tasks, and among those the one that has waited longest.
-/

namespace OpenRusty
namespace Scheduler

structure NodeStat where
  healthy : Bool
  active : Nat
  lastSchedMs : Nat
  /-- No limit is `0`. -/
  cap : Nat
  deriving DecidableEq, Repr

def never : Nat := Word.max 64

namespace NodeStat

def last (node : NodeStat) : Nat := if node.lastSchedMs = never then 0 else node.lastSchedMs

def Eligible (node : NodeStat) : Prop := node.healthy = true ∧ (node.cap = 0 ∨ node.active < node.cap)

end NodeStat

def Before (a b : Nat × Nat) : Prop := a.1 < b.1 ∨ (a.1 = b.1 ∧ a.2 < b.2)

instance (a b : Nat × Nat) : Decidable (Before a b) :=
  inferInstanceAs (Decidable (a.1 < b.1 ∨ (a.1 = b.1 ∧ a.2 < b.2)))

abbrev Best := Option (Nat × Nat × Nat)

def consider (best : Best) (idx : Nat) (node : NodeStat) : Best :=
  if !node.healthy then
    best
  else if node.cap ≠ 0 ∧ node.cap ≤ node.active then
    best
  else
    match best with
    | none => some (idx, node.active, node.last)
    | some (_, bestActive, bestLast) =>
      if Before (node.active, node.last) (bestActive, bestLast) then
        some (idx, node.active, node.last)
      else
        best

def chooseLeastLoaded (nodes : List NodeStat) : Option Nat :=
  (go 0 none nodes).map fun best => best.1
where
  go (idx : Nat) (best : Best) (nodes : List NodeStat) : Best :=
    match nodes with
    | [] => best
    | node :: nodes => go (idx + 1) (consider best idx node) nodes

def IsBest (seen : List NodeStat) (best : Best) : Prop :=
  match best with
  | none => ∀ node ∈ seen, ¬ node.Eligible
  | some (i, active, last) =>
    ∃ node, seen[i]? = some node ∧ node.Eligible ∧ active = node.active ∧ last = node.last
      ∧ ∀ (j : Nat) (other : NodeStat), seen[j]? = some other → other.Eligible →
          ¬ Before (other.active, other.last) (active, last)
            ∧ (j < i → Before (active, last) (other.active, other.last))

theorem getElem?_concat_cases {seen : List NodeStat} {node other : NodeStat} {j : Nat}
    (h : (seen ++ [node])[j]? = some other)
    : (j < seen.length ∧ seen[j]? = some other) ∨ (j = seen.length ∧ other = node) := by
  rcases Nat.lt_trichotomy j seen.length with hlt | rfl | hlt
  . rw [List.getElem?_append_left hlt] at h
    exact .inl ⟨hlt, h⟩
  . rw [List.getElem?_concat_length] at h
    cases h
    exact .inr ⟨rfl, rfl⟩
  . rw [List.getElem?_eq_none (by simp; omega)] at h
    cases h

theorem IsBest.concat_of_not {seen : List NodeStat} {best : Best} (h : IsBest seen best) {node : NodeStat}
    (hnode : ¬ node.Eligible)
    : IsBest (seen ++ [node]) best := by
  rcases best with - | ⟨i, active, last⟩
  . intro other hother
    rcases List.mem_append.mp hother with hother | hother
    . exact h other hother
    . cases List.mem_singleton.mp hother
      exact hnode
  . rcases h with ⟨picked, hpicked, heligible, hactive, hlast, hleast⟩
    have hlt : i < seen.length := (List.getElem?_eq_some_iff.mp hpicked).1
    refine ⟨picked, by rwa [List.getElem?_append_left hlt], heligible, hactive, hlast, ?_⟩
    intro j other hj hother
    rcases getElem?_concat_cases hj with ⟨-, hj⟩ | ⟨-, rfl⟩
    . exact hleast j other hj hother
    . exact absurd hother hnode

theorem isBest_consider {seen : List NodeStat} {best : Best} (h : IsBest seen best) (node : NodeStat)
    : IsBest (seen ++ [node]) (consider best seen.length node) := by
  unfold consider
  split
  . next hsick =>
    apply h.concat_of_not
    rintro ⟨hhealthy, -⟩
    rw [hhealthy] at hsick
    cases hsick
  . next hhealthy =>
    split
    . next hfull =>
      apply h.concat_of_not
      rintro ⟨-, hcap | hcap⟩
      . exact hfull.1 hcap
      . omega
    . next hroom =>
      have heligible : node.Eligible := by
        refine ⟨by simpa using hhealthy, ?_⟩
        by_cases hcap : node.cap = 0
        . exact .inl hcap
        . exact .inr (by omega)
      have hself : (seen ++ [node])[seen.length]? = some node := List.getElem?_concat_length
      rcases best with - | ⟨i, active, last⟩
      . refine ⟨node, hself, heligible, rfl, rfl, ?_⟩
        intro j other hj hother
        rcases getElem?_concat_cases hj with ⟨-, hj⟩ | ⟨rfl, rfl⟩
        . exact absurd hother (h other (List.mem_of_getElem? hj))
        . refine ⟨?_, fun hlt => absurd hlt (Nat.lt_irrefl _)⟩
          unfold Before
          omega
      . rcases h with ⟨picked, hpicked, hpickable, rfl, rfl, hleast⟩
        have hlt : i < seen.length := (List.getElem?_eq_some_iff.mp hpicked).1
        dsimp only
        split
        . next hbefore =>
          refine ⟨node, hself, heligible, rfl, rfl, ?_⟩
          intro j other hj hother
          rcases getElem?_concat_cases hj with ⟨-, hj⟩ | ⟨rfl, rfl⟩
          . have hother := (hleast j other hj hother).1
            unfold Before at hbefore hother ⊢
            constructor
            . omega
            . omega
          . refine ⟨?_, fun hlt => absurd hlt (Nat.lt_irrefl _)⟩
            unfold Before
            omega
        . next hnot =>
          refine ⟨picked, by rwa [List.getElem?_append_left hlt], hpickable, rfl, rfl, ?_⟩
          intro j other hj hother
          rcases getElem?_concat_cases hj with ⟨-, hj⟩ | ⟨rfl, rfl⟩
          . exact hleast j other hj hother
          . exact ⟨hnot, fun hj => absurd (Nat.lt_trans hj hlt) (Nat.lt_irrefl _)⟩

theorem isBest_go {seen : List NodeStat} {best : Best} (h : IsBest seen best) (nodes : List NodeStat)
    : IsBest (seen ++ nodes) (chooseLeastLoaded.go seen.length best nodes) := by
  induction nodes generalizing seen best with
  | nil =>
    rw [List.append_nil]
    exact h
  | cons node nodes ih =>
    have hnext := ih (isBest_consider h node)
    rw [List.length_append, List.append_assoc] at hnext
    exact hnext

theorem isBest_all (nodes : List NodeStat) : IsBest nodes (chooseLeastLoaded.go 0 none nodes) := by
  have hnone : IsBest [] none := nofun
  exact isBest_go hnone nodes

theorem chooseLeastLoaded_eq_some {nodes : List NodeStat} {i : Nat} (h : chooseLeastLoaded nodes = some i)
    : ∃ node, nodes[i]? = some node ∧ node.Eligible
        ∧ ∀ (j : Nat) (other : NodeStat), nodes[j]? = some other → other.Eligible →
            ¬ Before (other.active, other.last) (node.active, node.last)
              ∧ (j < i → Before (node.active, node.last) (other.active, other.last)) := by
  rcases Option.map_eq_some_iff.mp h with ⟨⟨i, active, last⟩, hgo, rfl⟩
  have hbest := isBest_all nodes
  rw [hgo] at hbest
  rcases hbest with ⟨node, hnode, heligible, rfl, rfl, hleast⟩
  exact ⟨node, hnode, heligible, hleast⟩

end Scheduler
end OpenRusty
