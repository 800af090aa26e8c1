import ConfigBind.Bind.Strategy
import ConfigBind.Text.Template

/-!
# Binding scalars

A scalar is converted from the node at its path.  References inside a text are bound to texts first,
from left to right, and put in their places.
-/

namespace ConfigBind.Strategy

/-- The text a reference stands for, if there is data at its path. -/
def resolveReference (ctx : Context) (r : Request) (reference : String) :
    Attempt (Option String) := do
  let path := Path.parseWith r.path.separator reference
  match ((← ctx.bind (r.below path .text)).cast .text).toExcept with
  | .error e => throw e
  | .ok none => return none
  | .ok (some value) =>
    match value.datum with
    | .text text => return some text
    | _ => throw (.build (.typeMismatch TypeRef.text.name))

def bindScalar (ctx : Context) (r : Request) : Attempt (Option Value) := do
  match r.source.resolve? r.path with
  | some (.text text) =>
    if Text.hasReference text.toList then
      let filled ← (Text.Template.parse text.toList).fill (resolveReference ctx r)
      return some (← ctx.convert (.text (String.ofList filled)) r.type)
    else ctx.convertAt r
  | _ => ctx.convertAt r

def scalar : Strategy where
  name := "scalar"
  priority := 1000
  supports d := d.kind == .scalar
  bind ctx r := (bindScalar ctx r).outcome

end ConfigBind.Strategy
