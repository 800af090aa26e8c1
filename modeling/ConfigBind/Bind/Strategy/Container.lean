import ConfigBind.Bind.Strategy
import ConfigBind.Types.Container

/-!
# Binding containers

Lists and sets leave out elements that are bound to nothing, and so do maps with entries; in an
array such an element is an error.  Lists, sets and maps are bound into the instance of the target
if there is one.
-/

namespace ConfigBind.Strategy

def bindList (ctx : Context) (r : Request) : Attempt (Option Value) := do
  let d ← ctx.descriptor r.type
  match d.shape with
  | .list item =>
    match ← ctx.bindElements r item Context.skipElement with
    | none => return none
    | some items => return some (← Attempt.ofBuild (d.collect r.target.take.1 items))
  | _ => throw (.kind (d.kindError .list))

def bindArray (ctx : Context) (r : Request) : Attempt (Option Value) := do
  let d ← ctx.descriptor r.type
  match d.shape with
  | .array item _ =>
    match ← ctx.bindElements r item Context.refuseElement with
    | none => return none
    | some items => return some (← Attempt.ofBuild (d.collect none items))
  | _ => throw (.kind (d.kindError .array))

def bindSet (ctx : Context) (r : Request) : Attempt (Option Value) := do
  let d ← ctx.descriptor r.type
  match d.shape with
  | .set item =>
    match ← ctx.bindElements r item Context.skipElement with
    | none => return none
    | some items => return some (← Attempt.ofBuild (d.collect r.target.take.1 items))
  | _ => throw (.kind (d.kindError .set))

/-- Binds the entries under some keys of a map. -/
def bindEntries (ctx : Context) (r : Request) (value : TypeRef) :
    List String → Attempt (List (String × Value))
  | [] => return []
  | key :: rest => do
    match r.path.atKey? key with
    | none => throw (.unaddressableKey r.path.render key)
    | some child =>
      match ← ctx.bindPart (r.below child value) with
      | some v => return (key, v) :: (← bindEntries ctx r value rest)
      | none =>
        Script.note (.unboundEntry child.render)
        bindEntries ctx r value rest

def bindMap (ctx : Context) (r : Request) : Attempt (Option Value) := do
  let d ← ctx.descriptor r.type
  match d.shape with
  | .map value =>
    match r.source.resolve? r.path with
    | none => return none
    | some n =>
      match n.entries? with
      | none => throw (Context.unfit n d.type)
      | some nodes =>
        let entries ← bindEntries ctx r value (nodes.map (·.1))
        return some (← Attempt.ofBuild (d.collectEntries r.target.take.1 entries))
  | _ => throw (.kind (d.kindError .map))

def list : Strategy where
  name := "list"
  priority := 500
  supports d := d.kind == .list
  bind ctx r := (bindList ctx r).outcome

def array : Strategy where
  name := "array"
  priority := 500
  supports d := d.kind == .array
  bind ctx r := (bindArray ctx r).outcome

def set : Strategy where
  name := "set"
  priority := 500
  supports d := d.kind == .set
  bind ctx r := (bindSet ctx r).outcome

def map : Strategy where
  name := "map"
  priority := 500
  supports d := d.kind == .map
  bind ctx r := (bindMap ctx r).outcome

end ConfigBind.Strategy
