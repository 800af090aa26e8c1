import ConfigBind.Types.Descriptor

/-!
# Object types from lists of fields

Record and bean types that are given by their fields.  The data of such an object has one datum a
field; a record takes each field from the component of its name, and a bean has a property for each.
A field that may be absent starts as `Datum.none`.
-/

namespace ConfigBind

structure Field where
  /-- The name in the data of the object. -/
  label : String
  /-- The name that data trees use. -/
  name : String
  type : TypeRef
  /-- Whether a record cannot do without it. -/
  required : Bool
  /-- What the field holds as long as nothing is bound to it. -/
  initial : Datum
  /-- Whether a bean shows its value. -/
  readable : Bool
  deriving Repr, Inhabited

namespace Field

def component (f : Field) : Component := ⟨f.name, f.type⟩

def take (f : Field) : Construction Datum :=
  if f.required then Construction.require f.name f.type
  else Construction.takeOr f.name f.type f.initial

def takeAll : List Field → Construction (List (String × Datum))
  | [] => return []
  | f :: rest => do
    let datum ← f.take
    return (f.label, datum) :: (← takeAll rest)

def property (owner : TypeRef) (f : Field) : Property where
  owner
  name := f.label
  type := f.type
  preferred := if f.name == f.label then none else some f.name
  getter := if f.readable then some fun d => (d.field? f.label).getD .none else none
  setter := some fun d value => d.setField f.label value

end Field

/-- The object that has nothing but the initial data of its fields. -/
def Datum.ofFields (fields : List Field) : Datum :=
  .object (fields.map fun f => (f.label, f.initial))

/-- A record type of some fields; `check` has the last word on a new record. -/
def Descriptor.ofRecord (t : TypeRef) (fields : List Field)
    (check : Datum → Except BuildError Datum) : Descriptor where
  type := t
  shape := .record (fields.map (·.component)) do
    match check (.object (← Field.takeAll fields)) with
    | .ok datum => return datum
    | .error e => throw e

/-- A bean type of some fields, with more properties behind theirs. -/
def Descriptor.ofBean (t : TypeRef) (fields : List Field) (more : List Property)
    (factory : Option Datum) : Descriptor :=
  ⟨t, .bean (fields.map (Field.property t) ++ more) factory⟩

end ConfigBind
