/-!
# Types by name

A `TypeRef` stands for a type: an identifier that no other type has, and the full name that messages
show.  The short name (`ident`) is the last part of the full name's path, without type arguments.
-/

namespace ConfigBind

/-- A type, as it is referred to. -/
structure TypeRef where
  id : String
  name : String
  deriving DecidableEq, Repr, Inhabited

/-- What follows the last double colon; `current` is the answer if there is none. -/
def lastNamePart (current : List Char) : List Char → List Char
  | [] => current
  | ':' :: ':' :: rest => lastNamePart rest (':' :: rest)
  | _ :: rest => lastNamePart current rest

namespace TypeRef

/-- The short name of a type. -/
def ident (t : TypeRef) : String :=
  let head := t.name.toList.takeWhile (· != '<')
  String.ofList (lastNamePart head head)

def bool : TypeRef := ⟨"bool", "bool"⟩

def char : TypeRef := ⟨"char", "char"⟩

def text : TypeRef := ⟨"String", "alloc::string::String"⟩

def float32 : TypeRef := ⟨"f32", "f32"⟩

def float64 : TypeRef := ⟨"f64", "f64"⟩

end TypeRef

/-- The integer types: with and without sign, of 8 to 128 bits.  The last of each has the size of an
index, which is 64 bits. -/
inductive IntegerType
  | i8
  | i16
  | i32
  | i64
  | i128
  | isize
  | u8
  | u16
  | u32
  | u64
  | u128
  | usize
  deriving DecidableEq, Repr

namespace IntegerType

def all : List IntegerType :=
  [i8, i16, i32, i64, i128, isize, u8, u16, u32, u64, u128, usize]

def name : IntegerType → String
  | i8 => "i8"
  | i16 => "i16"
  | i32 => "i32"
  | i64 => "i64"
  | i128 => "i128"
  | isize => "isize"
  | u8 => "u8"
  | u16 => "u16"
  | u32 => "u32"
  | u64 => "u64"
  | u128 => "u128"
  | usize => "usize"

def signed : IntegerType → Bool
  | i8 | i16 | i32 | i64 | i128 | isize => true
  | u8 | u16 | u32 | u64 | u128 | usize => false

def bits : IntegerType → Nat
  | i8 | u8 => 8
  | i16 | u16 => 16
  | i32 | u32 => 32
  | i64 | u64 | isize | usize => 64
  | i128 | u128 => 128

def lowest (t : IntegerType) : Int := if t.signed then -(Nat.pow 2 (t.bits - 1) : Nat) else 0

/-- The first number above the type's range. -/
def bound (t : IntegerType) : Int := Nat.pow 2 (if t.signed then t.bits - 1 else t.bits)

def holds (t : IntegerType) (n : Int) : Bool := t.lowest ≤ n && n < t.bound

def ref (t : IntegerType) : TypeRef := ⟨t.name, t.name⟩

end IntegerType

inductive TypeKind
  | scalar
  | object
  | record
  | bean
  | list
  | array
  | set
  | map
  deriving DecidableEq, Repr

namespace TypeKind

def all : List TypeKind := [scalar, object, record, bean, list, array, set, map]

def name : TypeKind → String
  | scalar => "Scalar"
  | object => "Object"
  | record => "Record"
  | bean => "Bean"
  | list => "List"
  | array => "Array"
  | set => "Set"
  | map => "Map"

/-- Whether values of the kind have no parts that are bound on their own. -/
def isLeaf (k : TypeKind) : Bool := k == scalar || k == object

def isCollection (k : TypeKind) : Bool := k == list || k == array || k == set || k == map

end TypeKind

structure KindError where
  expected : TypeKind
  received : TypeKind
  deriving DecidableEq, Repr

def KindError.message (e : KindError) : String :=
  "type kind mismatch: expected " ++ e.expected.name ++ ", received " ++ e.received.name

end ConfigBind
