import ConfigBind.Types.Value

/-!
# Unpacking values and components

`BuildError` says why a value cannot be put together or changed.  `Components` holds the values that
were collected for a record, and `Construction` is a computation that takes them out one by one: a
component that is taken is gone, also when it turns out to have the wrong type.
-/

namespace ConfigBind

inductive BuildError
  | typeMismatch (expected : String)
  | missingComponent (name type : String)
  | lengthMismatch (type : String) (expected actual : Nat)
  | noFactory (type : String)
  | notWritable (name : String)
  | custom (message : String)
  deriving DecidableEq, Repr

def BuildError.message : BuildError → String
  | typeMismatch expected => "type mismatch: expected a value of type `" ++ expected ++ "`"
  | missingComponent name type =>
    "missing component `" ++ name ++ "` required by `" ++ type ++ "`"
  | lengthMismatch type expected actual =>
    "invalid length for `" ++ type ++ "`: expected " ++ toString expected ++ ", received " ++
      toString actual
  | noFactory type => "no factory available to instantiate `" ++ type ++ "`"
  | notWritable name => "property `" ++ name ++ "` is not writable"
  | custom message => message

def BuildError.code : BuildError → String
  | typeMismatch _ => "TypeMismatch"
  | missingComponent .. => "MissingComponent"
  | lengthMismatch .. => "LengthMismatch"
  | noFactory _ => "NoFactory"
  | notWritable _ => "NotWritable"
  | custom _ => "Custom"

/-- The data of a value of the expected type. -/
def Value.as (t : TypeRef) (v : Value) : Except BuildError Datum :=
  if v.type = t then .ok v.datum else .error (.typeMismatch t.name)

/-- The values collected for the components of a record type, by name. -/
structure Components where
  owner : String
  values : List (String × Value)
  deriving Repr

/-- A computation that takes components out. -/
abbrev Construction (α : Type) := ExceptT BuildError (StateM Components) α

namespace Components

def empty (owner : String) : Components := ⟨owner, []⟩

def insert (c : Components) (name : String) (value : Value) : Components :=
  { c with values := Entries.insert name value c.values }

def contains (c : Components) (name : String) : Bool := (Entries.get? name c.values).isSome

def size (c : Components) : Nat := c.values.length

def erase (c : Components) (name : String) : Components :=
  { c with values := c.values.filter (·.1 != name) }

end Components

namespace Construction

def take (name : String) (type : TypeRef) : Construction (Option Datum) := do
  let components ← get
  set (components.erase name)
  match Entries.get? name components.values with
  | none => return none
  | some value =>
    match value.as type with
    | .ok datum => return some datum
    | .error e => throw e

def require (name : String) (type : TypeRef) : Construction Datum := do
  match ← take name type with
  | some datum => return datum
  | none => throw (.missingComponent name (← get).owner)

/-- Takes a component, or the given data in its place. -/
def takeOr (name : String) (type : TypeRef) (default : Datum) : Construction Datum := do
  return (← take name type).getD default

def build {α : Type} (c : Construction α) (components : Components) : Except BuildError α :=
  (ExceptT.run c |>.run components).1

end Construction

end ConfigBind
