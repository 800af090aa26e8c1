import ConfigBind.Tree.Node

/-!
# Trees from what a format reports

A self-describing format reports its content piece by piece; `Report` is such an account, with
more cases than a data tree has.  `Node.ofReport` accepts those a tree can hold.  Reading goes from
left to right, a key before its value, and the first failure is the outcome.
-/

namespace ConfigBind

/-- What a format reports about one value. -/
inductive Report
  | bool (value : Bool)
  | signed (value : Int64)
  | unsigned (value : UInt64)
  /-- An integer of 128 bits, with its type's name. -/
  | wide (type : String) (value : Int)
  | float (value : Binary64)
  | text (value : String)
  /-- Raw bytes, which spell a text. -/
  | bytes (value : String)
  | absent
  | unit
  | present (inner : Report)
  | wrapped (inner : Report)
  | sequence (items : List Report)
  | mapping (entries : List (Report × Report))
  | variant
  /-- The format itself fails. -/
  | failure (message : String)
  deriving Inhabited, Repr

inductive ReadError
  | unexpected (found wanted : String)
  | format (message : String)
  deriving DecidableEq, Repr

def ReadError.message : ReadError → String
  | unexpected found wanted => "invalid type: " ++ found ++ ", expected " ++ wanted
  | format message => message

namespace Report

/-- A float as it is named in a message, with a decimal place where it has none. -/
def floatText (x : Binary64) : String :=
  let text := x.text
  if x.isFinite && !text.toList.contains '.' then text ++ ".0" else text

def name : Report → String
  | bool value => "boolean `" ++ (if value then "true" else "false") ++ "`"
  | signed value => "integer `" ++ toString value.toInt ++ "`"
  | unsigned value => "integer `" ++ toString value.toNat ++ "`"
  | wide type value => "integer `" ++ toString value ++ "` as " ++ type
  | float value => "floating point `" ++ floatText value ++ "`"
  | text value => "string " ++ Text.quoted value
  | bytes _ => "byte array"
  | absent | present _ => "Option value"
  | unit => "unit value"
  | wrapped _ => "newtype struct"
  | sequence _ => "sequence"
  | mapping _ => "map"
  | variant => "enum"
  | failure message => message

def key : Report → Except ReadError String
  | text value | bytes value => .ok value
  | failure message => .error (.format message)
  | r => .error (.unexpected r.name "a string")

end Report

namespace Node

mutual

/-- The tree a report describes.  An absent or unit value is `null`, a wrapper is transparent, and
of entries with one key the last stays. -/
def ofReport : Report → Except ReadError Node
  | .bool value => .ok (.bool value)
  | .signed value => .ok (.int value)
  | .unsigned value => .ok (.uint value)
  | .float value => .ok (.float value)
  | .text value => .ok (.text value)
  | .absent | .unit => .ok .null
  | .present inner | .wrapped inner => ofReport inner
  | .sequence items => (ofReportItems items).map .list
  | .mapping entries => (ofReportEntries entries).map .ofEntries
  | .failure message => .error (.format message)
  | .wide type value =>
    .error (.unexpected (Report.wide type value).name "a tree of maps, lists and scalar values")
  | .bytes value =>
    .error (.unexpected (Report.bytes value).name "a tree of maps, lists and scalar values")
  | .variant => .error (.unexpected Report.variant.name "a tree of maps, lists and scalar values")

def ofReportItems : List Report → Except ReadError (List Node)
  | [] => .ok []
  | r :: rest => do
    let item ← ofReport r
    return item :: (← ofReportItems rest)

def ofReportEntries : List (Report × Report) → Except ReadError (List (String × Node))
  | [] => .ok []
  | (k, r) :: rest => do
    let key ← k.key
    let value ← ofReport r
    return (key, value) :: (← ofReportEntries rest)

end

end Node

end ConfigBind
