import OpenRusty.Core.Num
import OpenRusty.Lib.Percent
import OpenRusty.Lib.Utf8

/-!
This module contains the URL helpers of the SDK (`url.rs`): the first parameter of a name in a query and
the segments of a path, both decoded. The name is compared as it is written.
-/

namespace OpenRusty

namespace Url

def decode (input : String) : String := Utf8.fromUtf8Lossy (Percent.decode input.toUTF8.data.toList)

def keyVal (pair : String) : String × String := (splitOnce '=' pair).getD (pair, "")

def queryParam (query name : String) : Option String :=
  (splitChar '&' query).findSome? fun pair =>
    if (keyVal pair).1 = name then some (decode (keyVal pair).2) else none

def pathSegment (path : String) (n : Nat) : Option String :=
  if n = 0 then none else (((splitChar '/' path).filter fun s => !s.isEmpty)[n - 1]?).map decode

def Spells (raw value : String) : Prop := Percent.Spells raw.toUTF8.data.toList value.toUTF8.data.toList

theorem decode_of_spells {raw value : String} (h : Spells raw value) : decode raw = value := by
  rw [decode, Percent.decode_of_spells h, Utf8.fromUtf8Lossy_toUTF8]

theorem queryParam_eq_some {query name value : String}
    : queryParam query name = some value ↔
      ∃ before pair after, splitChar '&' query = before ++ pair :: after
        ∧ (∀ p ∈ before, (keyVal p).1 ≠ name) ∧ (keyVal pair).1 = name ∧ decode (keyVal pair).2 = value := by
  unfold queryParam
  rw [List.findSome?_eq_some_iff]
  constructor
  . rintro ⟨before, pair, after, hsplit, hpair, hbefore⟩
    refine ⟨before, pair, after, hsplit, ?_, ?_⟩
    . intro p hp hname
      have hnone := hbefore p hp
      rw [if_pos hname] at hnone
      cases hnone
    . split at hpair
      . next hname =>
        cases hpair
        exact ⟨hname, rfl⟩
      . cases hpair
  . rintro ⟨before, pair, after, hsplit, hbefore, hname, rfl⟩
    refine ⟨before, pair, after, hsplit, by rw [if_pos hname], ?_⟩
    intro p hp
    rw [if_neg (hbefore p hp)]

end Url

end OpenRusty
