import ConfigBind.Binary.Cast
import ConfigBind.Binary.Reader
import ConfigBind.Convert.Basic
import ConfigBind.Text.Basic

/-!
# The standard converters

Truth values, characters, texts, integers, floats and whole trees.

Nothing wraps, saturates or rounds on the way to an integer: a number outside the range of the
target is out of range, a float that is no integer is invalid, and so is a text that is no decimal
number of the range.  Numbers and truth values are read from a text without the blanks around it;
characters and texts take it as it is.
-/

namespace ConfigBind

open Text (trim)

def ConversionError.ofNode (n : Node) (t : TypeRef) : ConversionError := .unsupported n.kind t.name

namespace Convert

/-- A truth value: a boolean, the integers 0 and 1, or one of eight words in any case. -/
def bool : Converter
  | .bool value => .ok (.bool value)
  | .text value =>
    let word := String.ofList ((trim value.toList).map Char.toLower)
    if ["true", "yes", "on", "1"].contains word then .ok (.bool true)
    else if ["false", "no", "off", "0"].contains word then .ok (.bool false)
    else .error (.invalid value TypeRef.bool.name)
  | n =>
    match n.integer?, n.textual? with
    | some 0, _ => .ok (.bool false)
    | some 1, _ => .ok (.bool true)
    | _, some value => .error (.invalid value TypeRef.bool.name)
    | _, none => .error (.ofNode n .bool)

/-- A character: a scalar whose textual form is that character alone. -/
def char : Converter := fun n =>
  match n.textual? with
  | none => .error (.ofNode n .char)
  | some value =>
    match value.toList with
    | [c] => .ok (.char c)
    | _ => .error (.invalid value TypeRef.char.name)

def text : Converter := fun n =>
  match n.textual? with
  | none => .error (.ofNode n .text)
  | some value => .ok (.text value)

/-- A sign that a type has, and the digits after it. -/
def signedDigits (signed : Bool) : List Char → Bool × List Char
  | '-' :: rest => if signed then (true, rest) else (false, '-' :: rest)
  | '+' :: rest => (false, rest)
  | digits => (false, digits)

def integerOfText? (t : IntegerType) (text : List Char) : Option Int :=
  let (negative, digits) := signedDigits t.signed text
  if digits.isEmpty || !digits.all Char.isDigit then none
  else
    let n : Int := Binary.digitsValue digits
    let n := if negative then -n else n
    if t.holds n then some n else none

/-- An integer of a type out of an integer, which is shown as given if it is out of range. -/
def integerOfInt (t : IntegerType) (shown : String) (n : Int) : Except ConversionError Datum :=
  if t.holds n then .ok (.int n) else .error (.outOfRange shown t.name)

def int64End : Binary64 := .ofInt 0x8000000000000000

def uint64End : Binary64 := .ofInt 0x10000000000000000

/-- An integer of a type out of a float.  A float is cast only where the cast can hold its integer
part, and no integer outside 64 bits comes from a float. -/
def integerOfFloat (t : IntegerType) (x : Binary64) : Except ConversionError Datum :=
  if x.isNaN then .error (.invalid x.text t.name)
  else if x.within int64End.negate int64End then
    let truncated := x.toInt64.toInt
    if (Binary64.ofInt truncated).same x then integerOfInt t x.text truncated
    else .error (.invalid x.text t.name)
  else if x.within int64End uint64End then
    -- Every float as large as this is whole.
    integerOfInt t x.text x.toUInt64.toNat
  else .error (.outOfRange x.text t.name)

def integer (t : IntegerType) : Converter
  | .int value => integerOfInt t (toString value.toInt) value.toInt
  | .uint value => integerOfInt t (toString value.toNat) value.toNat
  | .float value => integerOfFloat t value
  | .text value =>
    match integerOfText? t (trim value.toList) with
    | some n => .ok (.int n)
    | none => .error (.invalid value t.name)
  | n => .error (.ofNode n t.ref)

def float64 : Converter
  | .int value => .ok (.double (.ofInt value.toInt))
  | .uint value => .ok (.double (.ofInt value.toNat))
  | .float value => .ok (.double value)
  | .text value =>
    match Binary64.ofText? (trim value.toList) with
    | some x => .ok (.double x)
    | none => .error (.invalid value TypeRef.float64.name)
  | n => .error (.ofNode n .float64)

def float32 : Converter
  | .int value => .ok (.single (.ofInt value.toInt))
  | .uint value => .ok (.single (.ofInt value.toNat))
  | .float value => .ok (.single value.narrow)
  | .text value =>
    match Binary32.ofText? (trim value.toList) with
    | some x => .ok (.single x)
    | none => .error (.invalid value TypeRef.float32.name)
  | n => .error (.ofNode n .float32)

def tree : Converter := fun n => .ok (.tree n)

end Convert

/-- The standard converters; `tree` is the type of whole trees. -/
def Conversion.standard (tree : TypeRef) : Conversion :=
  ⟨[(.bool, Convert.bool), (.char, Convert.char), (.text, Convert.text), (tree, Convert.tree)] ++
    IntegerType.all.map (fun t => (t.ref, Convert.integer t)) ++
    [(.float32, Convert.float32), (.float64, Convert.float64)]⟩

end ConfigBind
