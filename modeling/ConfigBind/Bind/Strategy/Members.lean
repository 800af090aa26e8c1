import ConfigBind.Bind.Strategy

/-!
# Binding records and beans

A record is constructed from the values of its components; a bean is an instance on which
properties are set one by one.  All members are bound, whatever becomes of the others, and their
failures are gathered.  In shallow mode only members of leaf types are bound.

Data that is no map is converted as a whole, where there is a converter.
-/

namespace ConfigBind.Strategy

def bindComponents (ctx : Context) (r : Request) :
    List Component → Components → List BindError → Attempt (Components × List BindError)
  | [], values, errors => return (values, errors)
  | c :: rest, values, errors => do
    if ← ctx.skips c.type then
      Script.note (.skippedComponent c.name r.type)
      bindComponents ctx r rest values errors
    else
      match ← ctx.bind (r.below (r.path.appendText c.name) c.type) with
      | .present value => bindComponents ctx r rest (values.insert c.name value) errors
      | .empty => bindComponents ctx r rest values errors
      | .failed e => bindComponents ctx r rest values (errors ++ [e])

def bindRecord (ctx : Context) (r : Request) : Attempt (Option Value) := do
  let d ← ctx.descriptor r.type
  match d.shape with
  | .record components _ =>
    match r.source.resolve? r.path with
    | none => return none
    | some n =>
      if n.isMap then
        let (values, errors) ← bindComponents ctx r components (.empty d.type.name) []
        if !errors.isEmpty then throw (.members r.type.name errors)
        match d.construct values with
        | .ok value => return some value
        | .error e => throw (.instantiation r.type.name e)
      else ctx.convertWhole n r.type
  | _ => throw (.kind (d.kindError .record))

/-- Binds properties and sets them on an instance; errors are collected.  A property that is no leaf
is bound into its present value, where that can be read. -/
def bindProperties (ctx : Context) (r : Request) :
    List Property → Value → List BindError → Attempt (Value × List BindError)
  | [], target, errors => return (target, errors)
  | p :: rest, target, errors => do
    let leaf ← ctx.isLeaf p.type
    if ctx.mode = .shallow ∧ !leaf then
      Script.note (.skippedProperty p.name r.type)
      bindProperties ctx r rest target errors
    else
      let child := r.path.appendText p.bindingName
      let current := if leaf then none else p.get? target
      let part : Request := { r with path := child, target := ⟨p.type, current, none⟩ }
      match ← ctx.bind part with
      | .present value =>
        match p.set target value with
        | .ok target => bindProperties ctx r rest target errors
        | .error e => bindProperties ctx r rest target (errors ++ [.build e])
      | .empty =>
        Script.note (.unboundProperty child.render p.name)
        bindProperties ctx r rest target errors
      | .failed e => bindProperties ctx r rest target (errors ++ [e])

/-- The instance to set properties on: that of the target, or a fresh one. -/
def startingInstance (d : Descriptor) (r : Request) : Attempt Value :=
  match r.target.take.1 with
  | some value => return value
  | none =>
    match d.instantiate with
    | .ok value => return value
    | .error e => throw (.instantiation r.type.name e)

def bindBean (ctx : Context) (r : Request) : Attempt (Option Value) := do
  let d ← ctx.descriptor r.type
  match d.kind with
  | .bean =>
    match r.source.resolve? r.path with
    | none => return none
    | some n =>
      if n.isMap then
        let start ← startingInstance d r
        let (value, errors) ← bindProperties ctx r d.writableProperties start []
        if !errors.isEmpty then throw (.members r.type.name errors)
        return some value
      else ctx.convertWhole n r.type
  | _ => ctx.convertAt r

def record : Strategy where
  name := "value object"
  priority := 100
  supports d := d.kind == .record
  bind ctx r := (bindRecord ctx r).outcome

/-- The strategy for beans, and for whatever no other strategy takes. -/
def bean : Strategy where
  name := "bean"
  priority := -0x80000000
  supports d := d.kind != .record && d.kind != .scalar
  bind ctx r := (bindBean ctx r).outcome

end ConfigBind.Strategy
