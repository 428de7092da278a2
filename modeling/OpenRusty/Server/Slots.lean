import OpenRusty.Core.Config
import OpenRusty.K8s.Render.Basic
import OpenRusty.Lib.Pool

/-!
This module contains the hand-overs of the watch loops to the applier (`ingress/mod.rs`), for one kind
of objects: there is one loop for every watched path, each with a slot of its own. A hand-over first
updates the slot and folds all of them, under one lock, and then publishes what it has folded. The
applier gets the two kinds as a pair, a publication of one kind leaves the other one as it is.
-/

namespace OpenRusty

def ingressApi : String := "/apis/networking.k8s.io/v1"

def secretApi : String := "/api/v1"

def tlsSecretSelector : String := "fieldSelector=type%3Dkubernetes.io%2Ftls"

def resourcePaths (api resource query : String) (namespaces : List String) : List String :=
  let tail := if query.isEmpty then resource else resource ++ "?" ++ query
  if namespaces.isEmpty then
    [api ++ "/" ++ tail]
  else
    namespaces.map fun ns => api ++ "/namespaces/" ++ ns ++ "/" ++ tail

def ingressPaths (namespaces : List String) : List String :=
  resourcePaths ingressApi "ingresses" "" namespaces

def secretPaths (namespaces : List String) : List String :=
  resourcePaths secretApi "secrets" tlsSecretSelector namespaces

structure HandOvers (T : Type) where
  slots : List (Option (Snapshot T))
  published : Snapshot T
  /-- What was folded so far with the index of its loop, for the specification only -/
  folds : List (Nat × Snapshot T) := []

structure WatchLoop (T : Type) where
  index : Nat
  -- what is folded and still to be published
  merged : Option (Snapshot T) := none

inductive HandOverStep (T : Type) [ResourceMeta T] where
  | fold (incoming : KeyedSnapshot T)
  | publish

namespace HandOvers

variable {T : Type} [ResourceMeta T]

def mergeSlots (slots : List (Option (Snapshot T))) (resourceVersion : String) : Snapshot T :=
  let items := slots.flatMap fun slot => slot.elim [] fun snap => snap.iter.map Prod.snd
  Snapshot.replaceFromList items resourceVersion

def foldSlot (slots : List (Option (Snapshot T))) (index : Nat) (incoming : Snapshot T)
    : List (Option (Snapshot T)) × Snapshot T :=
  let slots := slots.set index (some incoming)
  (slots, mergeSlots slots incoming.resourceVersion)

def act (s : HandOvers T) (t : WatchLoop T) (x : HandOverStep T) : Option (HandOvers T × WatchLoop T) :=
  match t.merged, x with
  | none, .fold incoming =>
    match foldSlot s.slots t.index incoming.toSnapshot with
    | (slots, merged) =>
      some ({ s with slots := slots, folds := s.folds ++ [(t.index, incoming.toSnapshot)] },
        { t with merged := some merged })
  | some merged, .publish => some ({ s with published := merged }, { t with merged := none })
  | _, _ => none

abbrev Loops (T : Type) := Pool (HandOvers T) (WatchLoop T)

def step (p : Loops T) (e : Pool.Event Empty (HandOverStep T)) : Option (Loops T) :=
  Pool.step Empty.elim act p e

def init (paths : List String) : Loops T where
  shared := { slots := paths.map fun _ => none, published := Snapshot.new }
  threads := (List.range paths.length).map fun i => { index := i }

end HandOvers

end OpenRusty
