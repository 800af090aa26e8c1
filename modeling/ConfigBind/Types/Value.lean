import ConfigBind.Tree.Node
import ConfigBind.Types.TypeRef

/-!
# Typed values

A `Value` is a piece of data together with its type; that the type is the expected one is checked
wherever a value is unpacked (`Value.as`).  A `Datum` is the data alone: scalars, a data tree, the
absence of an optional part, and what containers and objects are made of.

Sets list their elements in the order of `Datum.compare`, without repetition, so that a set is known
by its elements.
-/

namespace ConfigBind

inductive Datum
  | bool (value : Bool)
  | char (value : Char)
  | text (value : String)
  | int (value : Int)
  | double (value : Binary64)
  | single (value : Binary32)
  | tree (value : Node)
  /-- An optional part that is not there. -/
  | none
  /-- The elements of a list or an array. -/
  | list (items : List Datum)
  /-- The elements of a set, in order. -/
  | set (items : List Datum)
  /-- The entries of a map, in key order. -/
  | map (entries : List (String × Datum))
  /-- The fields of a record or a bean. -/
  | object (fields : List (String × Datum))
  deriving Inhabited, Repr

def Node.rank : Node → Nat
  | null => 0
  | bool _ => 1
  | int _ => 2
  | uint _ => 3
  | float _ => 4
  | text _ => 5
  | list _ => 6
  | map _ => 7

mutual

/-- The order of trees: by case, then by content. -/
def Node.compare : Node → Node → Ordering
  | .bool a, .bool b => Ord.compare a b
  | .int a, .int b => Ord.compare a.toInt b.toInt
  | .uint a, .uint b => Ord.compare a.toNat b.toNat
  | .float a, .float b => Ord.compare a.bits.toNat b.bits.toNat
  | .text a, .text b => Ord.compare a b
  | .list a, .list b => Node.compareItems a b
  | .map a, .map b => Node.compareEntries a b
  | a, b => Ord.compare a.rank b.rank

/-- The order of lists of trees: element by element, a shorter list before its extensions. -/
def Node.compareItems : List Node → List Node → Ordering
  | [], [] => .eq
  | [], _ :: _ => .lt
  | _ :: _, [] => .gt
  | a :: as, b :: bs => (Node.compare a b).then (Node.compareItems as bs)

def Node.compareEntries : List (String × Node) → List (String × Node) → Ordering
  | [], [] => .eq
  | [], _ :: _ => .lt
  | _ :: _, [] => .gt
  | (k, a) :: as, (l, b) :: bs =>
    (Ord.compare k l).then ((Node.compare a b).then (Node.compareEntries as bs))

end

namespace Datum

def rank : Datum → Nat
  | bool _ => 0
  | char _ => 1
  | text _ => 2
  | int _ => 3
  | double _ => 4
  | single _ => 5
  | tree _ => 6
  | none => 7
  | list _ => 8
  | set _ => 9
  | map _ => 10
  | object _ => 11

mutual

/-- The order of data: by case, then by content. -/
def compare : Datum → Datum → Ordering
  | bool a, bool b => Ord.compare a b
  | char a, char b => Ord.compare a.toNat b.toNat
  | text a, text b => Ord.compare a b
  | int a, int b => Ord.compare a b
  | double a, double b => Ord.compare a.bits.toNat b.bits.toNat
  | single a, single b => Ord.compare a.bits.toNat b.bits.toNat
  | tree a, tree b => Node.compare a b
  | list a, list b | set a, set b => compareItems a b
  | map a, map b | object a, object b => compareEntries a b
  | a, b => Ord.compare a.rank b.rank

def compareItems : List Datum → List Datum → Ordering
  | [], [] => .eq
  | [], _ :: _ => .lt
  | _ :: _, [] => .gt
  | a :: as, b :: bs => (compare a b).then (compareItems as bs)

def compareEntries : List (String × Datum) → List (String × Datum) → Ordering
  | [], [] => .eq
  | [], _ :: _ => .lt
  | _ :: _, [] => .gt
  | (k, a) :: as, (l, b) :: bs =>
    (Ord.compare k l).then ((compare a b).then (compareEntries as bs))

end

def insertElement (x : Datum) : List Datum → List Datum
  | [] => [x]
  | y :: rest =>
    match compare x y with
    | .lt => x :: y :: rest
    | .eq => y :: rest
    | .gt => y :: insertElement x rest

def insertElements (elements added : List Datum) : List Datum :=
  added.foldl (fun acc x => insertElement x acc) elements

def elements : Datum → List Datum
  | list items | set items => items
  | _ => []

def entries : Datum → List (String × Datum)
  | map entries => entries
  | _ => []

def field? (d : Datum) (name : String) : Option Datum :=
  match d with
  | object fields => fields.lookup name
  | _ => Option.none

/-- The object with a new value in a field that it has. -/
def setField (d : Datum) (name : String) (value : Datum) : Datum :=
  match d with
  | object fields => object (fields.map fun (n, v) => (n, if n = name then value else v))
  | d => d

end Datum

/-- A value together with its type. -/
structure Value where
  type : TypeRef
  datum : Datum
  deriving Inhabited, Repr

end ConfigBind
