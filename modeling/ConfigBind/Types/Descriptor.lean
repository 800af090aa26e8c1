import ConfigBind.Text.Basic
import ConfigBind.Types.Components

/-!
# Type descriptors

A `Descriptor` tells what a type is made of, so that a value of it can be put together from parts:
the components of a record with the construction that consumes them, the properties of a bean with
their accessors and the factory of fresh instances, the element type of a container.  Its kind and
the types it depends on are read off its shape.
-/

namespace ConfigBind

structure Component where
  name : String
  type : TypeRef
  deriving DecidableEq, Repr

/-- A property of a bean: how it is called, and how it is read from and written to the data of its
owner. -/
structure Property where
  owner : TypeRef
  name : String
  type : TypeRef
  /-- The name that data uses, where it is not `name`. -/
  preferred : Option String
  getter : Option (Datum → Datum)
  setter : Option (Datum → Datum → Datum)

namespace Property

def readOnly (owner : TypeRef) (name : String) (type : TypeRef) (getter : Datum → Datum) :
    Property :=
  ⟨owner, name, type, none, some getter, none⟩

/-- The name that data uses. -/
def bindingName (p : Property) : String := p.preferred.getD p.name

def isReadable (p : Property) : Bool := p.getter.isSome

def isWritable (p : Property) : Bool := p.setter.isSome

/-- The value of the property in a target, if it can be read there. -/
def get? (p : Property) (target : Value) : Option Value :=
  if target.type = p.owner then p.getter.map fun getter => ⟨p.type, getter target.datum⟩ else none

def set (p : Property) (target value : Value) : Except BuildError Value := do
  match p.setter with
  | none => throw (.notWritable p.name)
  | some setter =>
    let old ← target.as p.owner
    let new ← value.as p.type
    return { target with datum := setter old new }

def describe (p : Property) : String :=
  let preferred :=
    match p.preferred with
    | some name => "Some(" ++ Text.quoted name ++ ")"
    | none => "None"
  "PropertyInfo \x7b name: " ++ Text.quoted p.name ++ ", preferred_name: " ++ preferred ++
    ", ty: " ++ p.type.name ++ ", readable: " ++ toString p.isReadable ++ ", writable: " ++
    toString p.isWritable ++ " \x7d"

end Property

inductive Shape
  | scalar
  | object
  | record (components : List Component) (construct : Construction Datum)
  | bean (properties : List Property) (factory : Option Datum)
  | list (item : TypeRef)
  /-- An array, of a fixed length if there is a capacity. -/
  | array (item : TypeRef) (capacity : Option Nat)
  | set (item : TypeRef)
  /-- A map with text keys. -/
  | map (value : TypeRef)

namespace Shape

def kind : Shape → TypeKind
  | scalar => .scalar
  | object => .object
  | record .. => .record
  | bean .. => .bean
  | list _ => .list
  | array .. => .array
  | set _ => .set
  | map _ => .map

/-- The types of the parts, in the order of their declaration. -/
def dependencies : Shape → List TypeRef
  | scalar | object => []
  | record components _ => components.map (·.type)
  | bean properties _ => properties.map (·.type)
  | list item | array item _ | set item => [item]
  | map value => [value]

end Shape

structure Descriptor where
  type : TypeRef
  shape : Shape

namespace Descriptor

def kind (d : Descriptor) : TypeKind := d.shape.kind

def dependencies (d : Descriptor) : List TypeRef := d.shape.dependencies

def kindError (d : Descriptor) (expected : TypeKind) : KindError := ⟨expected, d.kind⟩

def expect (d : Descriptor) (expected : TypeKind) : Except KindError Unit :=
  if d.kind = expected then .ok () else .error (d.kindError expected)

/-- The type of the elements, or of the values of a map. -/
def item? (d : Descriptor) : Option TypeRef :=
  match d.shape with
  | .list item | .array item _ | .set item | .map item => some item
  | _ => none

def components (d : Descriptor) : List Component :=
  match d.shape with
  | .record components _ => components
  | _ => []

def component? (d : Descriptor) (name : String) : Option Component :=
  d.components.find? (·.name == name)

def properties (d : Descriptor) : List Property :=
  match d.shape with
  | .bean properties _ => properties
  | _ => []

/-- The property of a name, or of a preferred name. -/
def property? (d : Descriptor) (name : String) : Option Property :=
  d.properties.find? fun p => p.name == name || p.preferred == some name

def writableProperties (d : Descriptor) : List Property := d.properties.filter (·.isWritable)

def hasFactory (d : Descriptor) : Bool :=
  match d.shape with
  | .bean _ factory => factory.isSome
  | _ => false

/-- A fresh instance of a bean. -/
def instantiate (d : Descriptor) : Except BuildError Value :=
  match d.shape with
  | .bean _ (some datum) => .ok ⟨d.type, datum⟩
  | _ => .error (.noFactory d.type.name)

def construct (d : Descriptor) (components : Components) : Except BuildError Value :=
  match d.shape with
  | .record _ construct => (construct.build components).map fun datum => ⟨d.type, datum⟩
  | _ => .error (.noFactory d.type.name)

def describeBean (d : Descriptor) : String :=
  "BeanInfo \x7b ty: " ++ d.type.name ++ ", properties: [" ++
    ", ".intercalate (d.properties.map (·.describe)) ++ "], factory: " ++ toString d.hasFactory ++
    " \x7d"

end Descriptor

end ConfigBind
