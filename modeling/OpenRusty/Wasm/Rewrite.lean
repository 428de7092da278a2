import OpenRusty.Core.Text
import OpenRusty.Wasm.Session.Basic

/-!
This module contains the calls by which a plugin rewrites the request (`linker_rewrite.rs`). A call
that is accepted changes the context at once and records an edit, a refused one changes nothing. An
argument is `none` if the guest passed a range outside of its memory.
-/

namespace OpenRusty

def maxPartBytes : Nat := 8192

def protectedHeader : String := "content-length"

def validUri (value : String) : Bool :=
  !value.isEmpty && startsWith value "/" && decide (len value ≤ maxPartBytes)
    && !value.toList.any fun c => c == '?' || c == '#' || isControl c

def validQuery (value : String) : Bool :=
  decide (len value ≤ maxPartBytes) && !startsWith value "?" && !value.toList.any isControl

def isProtectedHeader (name : String) : Bool := eqIgnoreAsciiCase name protectedHeader

def delHeader (headers : List (String × String)) (name : String) : List (String × String) :=
  headers.filter fun h => !eqIgnoreAsciiCase h.1 name

def setHeader (headers : List (String × String)) (name value : String) : List (String × String) :=
  delHeader headers name ++ [(name, value)]

namespace ReqEdit

def apply (ctx : ReqCtx) (edit : ReqEdit) : ReqCtx :=
  match edit with
  | .setUri uri => { ctx with path := uri }
  | .setQuery query => { ctx with query := query }
  | .setHeader name value => { ctx with headers := OpenRusty.setHeader ctx.headers name value }
  | .delHeader name => { ctx with headers := OpenRusty.delHeader ctx.headers name }

def valid (edit : ReqEdit) : Bool :=
  match edit with
  | .setUri uri => validUri uri
  | .setQuery query => validQuery query
  | .setHeader name _ => !isProtectedHeader name
  | .delHeader name => !isProtectedHeader name

end ReqEdit

inductive RewriteCall where
  | setUri (value : Option String)
  | setQuery (value : Option String)
  | setHeader (name value : Option String)
  | delHeader (name : Option String)
  deriving DecidableEq, Repr

namespace HostData

def edited (hd : HostData) (edit : ReqEdit) : HostData :=
  { hd with ctx := edit.apply hd.ctx, reqEdits := hd.reqEdits ++ [edit] }

def tryEdit (hd : HostData) (edit : ReqEdit) : Int × HostData :=
  if edit.valid then (0, hd.edited edit) else (-1, hd)

def reqSetUri (hd : HostData) (value : Option String) : Int × HostData :=
  match value with
  | some value => hd.tryEdit (.setUri value)
  | none => (-1, hd)

def reqSetQuery (hd : HostData) (value : Option String) : Int × HostData :=
  match value with
  | some value => hd.tryEdit (.setQuery value)
  | none => (-1, hd)

def reqSetHeader (hd : HostData) (name value : Option String) : Int × HostData :=
  match name, value with
  | some name, some value => hd.tryEdit (.setHeader name value)
  | _, _ => (-1, hd)

/-- The deletion of a protected header is reported as a success. -/
def reqDelHeader (hd : HostData) (name : Option String) : Int × HostData :=
  match name with
  | some name => if isProtectedHeader name then (0, hd) else hd.tryEdit (.delHeader name)
  | none => (-1, hd)

def rewrite (hd : HostData) (call : RewriteCall) : Int × HostData :=
  match call with
  | .setUri value => hd.reqSetUri value
  | .setQuery value => hd.reqSetQuery value
  | .setHeader name value => hd.reqSetHeader name value
  | .delHeader name => hd.reqDelHeader name

def rewrites (hd : HostData) (calls : List RewriteCall) : HostData :=
  calls.foldl (fun hd call => (hd.rewrite call).2) hd

theorem tryEdit_cases (hd : HostData) (edit : ReqEdit)
    : (hd.tryEdit edit).2 = hd ∨ edit.valid = true ∧ (hd.tryEdit edit).2 = hd.edited edit := by
  unfold tryEdit
  split
  . next hvalid =>
    right
    exact ⟨hvalid, rfl⟩
  . left
    rfl

theorem rewrite_cases (hd : HostData) (call : RewriteCall)
    : (hd.rewrite call).2 = hd
        ∨
      ∃ edit : ReqEdit, edit.valid = true ∧ (hd.rewrite call).2 = hd.edited edit := by
  have hedit (edit : ReqEdit) : (hd.tryEdit edit).2 = hd
      ∨ ∃ edit' : ReqEdit, edit'.valid = true ∧ (hd.tryEdit edit).2 = hd.edited edit' := by
    rcases hd.tryEdit_cases edit with h | ⟨hvalid, h⟩
    . left
      assumption
    . right
      exact ⟨edit, hvalid, h⟩
  unfold rewrite
  split
  . unfold reqSetUri
    split
    . apply hedit
    . left
      rfl
  . unfold reqSetQuery
    split
    . apply hedit
    . left
      rfl
  . unfold reqSetHeader
    split
    . apply hedit
    . left
      rfl
  . unfold reqDelHeader
    split
    . split
      . left
        rfl
      . apply hedit
    . left
      rfl

theorem rewrites_inv {P : ReqCtx → Prop}
    (hedit : ∀ ctx edit, P ctx → ReqEdit.valid edit = true → P (edit.apply ctx))
    {hd : HostData} (h : P hd.ctx) (calls : List RewriteCall)
    : P (hd.rewrites calls).ctx := by
  unfold rewrites
  induction calls generalizing hd with
  | nil => exact h
  | cons call calls ih =>
    rw [List.foldl_cons]
    apply ih
    rcases hd.rewrite_cases call with heq | ⟨edit, hvalid, heq⟩
    . rw [heq]
      assumption
    . rw [heq]
      apply hedit _ _ h hvalid

end HostData

end OpenRusty
