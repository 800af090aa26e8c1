import ConfigBind.Binary.Shortest
import ConfigBind.Path.Basic
import ConfigBind.Tree.Entries

/-!
# Data trees

A `Node` is a piece of configuration data: nothing, a scalar, a list of nodes or a map of named
nodes.  `Node.get?` follows a path from a node, one segment at a time: a map is looked up by the
text of the segment, a list by its index, and a segment without any mark stays where it is.

The entries of a map stand in key order (`Node.ofEntries` puts them there).
-/

namespace ConfigBind

inductive NodeKind
  | null
  | scalar
  | list
  | map
  deriving DecidableEq, Repr

def NodeKind.text : NodeKind → String
  | null => "null"
  | scalar => "scalar"
  | list => "list"
  | map => "map"

inductive Node
  | null
  | bool (value : Bool)
  | int (value : Int64)
  | uint (value : UInt64)
  | float (value : Binary64)
  | text (value : String)
  | list (items : List Node)
  | map (entries : List (String × Node))
  deriving Inhabited, Repr

namespace Node

/-- The map of some entries; of those with one key the last stays. -/
def ofEntries (pairs : List (String × Node)) : Node := map (Entries.ofList pairs)

def kind : Node → NodeKind
  | null => .null
  | bool _ | int _ | uint _ | float _ | text _ => .scalar
  | list _ => .list
  | map _ => .map

def isNull (n : Node) : Bool := n.kind == .null

def isScalar (n : Node) : Bool := n.kind == .scalar

def isList (n : Node) : Bool := n.kind == .list

def isMap (n : Node) : Bool := n.kind == .map

def bool? : Node → Option Bool
  | bool value => some value
  | _ => none

def integer? : Node → Option Int
  | int value => some value.toInt
  | uint value => some value.toNat
  | _ => none

def int64? (n : Node) : Option Int :=
  n.integer?.filter fun i => -0x8000000000000000 ≤ i && i < 0x8000000000000000

def uint64? (n : Node) : Option Int :=
  n.integer?.filter fun i => 0 ≤ i && i < 0x10000000000000000

/-- The number of a numeric node, rounded if need be. -/
def number? : Node → Option Binary64
  | float value => some value
  | n => n.integer?.map Binary64.ofInt

def text? : Node → Option String
  | text value => some value
  | _ => none

/-- The textual form of a scalar. -/
def textual? : Node → Option String
  | text value => some value
  | bool value => some (if value then "true" else "false")
  | int value => some (toString value.toInt)
  | uint value => some (toString value.toNat)
  | float value => some value.text
  | null | list _ | map _ => none

def items? : Node → Option (List Node)
  | list items => some items
  | _ => none

def entries? : Node → Option (List (String × Node))
  | map entries => some entries
  | _ => none

def size : Node → Nat
  | list items => items.length
  | map entries => entries.length
  | _ => 0

/-- The child a segment leads to. -/
def child? (n : Node) (s : Segment) : Option Node :=
  match n with
  | map entries => Entries.get? s.text entries
  | list items => s.index?.bind fun i => items[i]?
  | _ => none

/-- The node a list of segments leads to; segments without any mark stay in place. -/
def follow? (n : Node) (segments : List Segment) : Option Node :=
  (segments.filter (!·.kind.isBlank)).foldlM child? n

def get? (n : Node) (p : Path) : Option Node := n.follow? p.segments

/-- The node a path leads to, unless that is `null`. -/
def resolve? (n : Node) (p : Path) : Option Node := (n.get? p).filter (!·.isNull)

/-- Whether a path leads to data. -/
def contains (n : Node) (p : Path) : Bool := (n.resolve? p).isSome

mutual

def depth : Node → Nat
  | list items => depthItems items
  | map entries => depthEntries entries
  | _ => 0

def depthItems : List Node → Nat
  | [] => 0
  | n :: rest => max (n.depth + 1) (depthItems rest)

def depthEntries : List (String × Node) → Nat
  | [] => 0
  | (_, n) :: rest => max (n.depth + 1) (depthEntries rest)

end

mutual

def texts : Node → List String
  | text value => [value]
  | list items => textsItems items
  | map entries => textsEntries entries
  | _ => []

def textsItems : List Node → List String
  | [] => []
  | n :: rest => n.texts ++ textsItems rest

def textsEntries : List (String × Node) → List String
  | [] => []
  | (_, n) :: rest => n.texts ++ textsEntries rest

end

mutual

def describe : Node → String
  | null => "Null"
  | bool value => "Bool(" ++ (if value then "true" else "false") ++ ")"
  | int value => "Int(" ++ toString value.toInt ++ ")"
  | uint value => "UInt(" ++ toString value.toNat ++ ")"
  | float value => "Float(" ++ value.describe ++ ")"
  | text value => "String(" ++ Text.quoted value ++ ")"
  | list items => "List([" ++ ", ".intercalate (describeItems items) ++ "])"
  | map entries => "Map(\x7b" ++ ", ".intercalate (describeEntries entries) ++ "\x7d)"

def describeItems : List Node → List String
  | [] => []
  | n :: rest => n.describe :: describeItems rest

def describeEntries : List (String × Node) → List String
  | [] => []
  | (key, n) :: rest => (Text.quoted key ++ ": " ++ n.describe) :: describeEntries rest

end

end Node

end ConfigBind
