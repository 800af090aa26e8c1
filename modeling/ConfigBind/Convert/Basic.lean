import ConfigBind.Types.Value

/-!
# Conversions

A `Conversion` is a table of converters, one a target type, that make data out of tree nodes.  A
value that comes out has the type that was asked for.
-/

namespace ConfigBind

inductive ConversionError
  | noConverter (target : String)
  | unsupported (source : NodeKind) (target : String)
  | invalid (value target : String)
  | outOfRange (value target : String)
  deriving DecidableEq, Repr

def ConversionError.message : ConversionError → String
  | noConverter target => "no converter registered for `" ++ target ++ "`"
  | unsupported source target => "cannot convert a " ++ source.text ++ " node to `" ++ target ++ "`"
  | invalid value target => "cannot convert `" ++ value ++ "` to `" ++ target ++ "`"
  | outOfRange value target => "`" ++ value ++ "` is out of range for `" ++ target ++ "`"

def ConversionError.code : ConversionError → String
  | noConverter _ => "NoConverter"
  | unsupported .. => "Unsupported"
  | invalid .. => "Invalid"
  | outOfRange .. => "OutOfRange"

abbrev Converter := Node → Except ConversionError Datum

/-- The converters at hand, by target type. -/
structure Conversion where
  converters : List (TypeRef × Converter)

namespace Conversion

def empty : Conversion := ⟨[]⟩

def converter? (c : Conversion) (t : TypeRef) : Option Converter := c.converters.lookup t

/-- The table with a converter for a type, in place of an earlier one. -/
def register (c : Conversion) (t : TypeRef) (converter : Converter) : Conversion :=
  ⟨c.converters.filter (·.1 != t) ++ [(t, converter)]⟩

def size (c : Conversion) : Nat := c.converters.length

def canConvert (c : Conversion) (t : TypeRef) : Bool := (c.converter? t).isSome

def convert (c : Conversion) (n : Node) (t : TypeRef) : Except ConversionError Value :=
  match c.converter? t with
  | none => .error (.noConverter t.name)
  | some converter => (converter n).map fun datum => ⟨t, datum⟩

def describe (c : Conversion) : String :=
  "DefaultConversion \x7b converters: " ++ toString c.size ++ " \x7d"

end Conversion

end ConfigBind
