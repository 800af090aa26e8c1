import ConfigBind.Binary.Reader
import ConfigBind.Tree.Node

/-!
# Trees from JSON

`Node.ofJson?` reads the JSON value at the start of a text; what comes after it is not looked at.
Containers nest at most 127 deep.

An integer that fits 64 bits becomes an integer node, with sign only if it is negative.  Any other
number becomes the nearest float, and is an error where that is infinite.
-/

namespace ConfigBind

namespace Json

def skipBlanks (cs : List Char) : List Char :=
  cs.dropWhile fun c => c == ' ' || c == '\n' || c == '\t' || c == '\r'

def whole? (cs : List Char) : Option (List Char × List Char) :=
  let digits := cs.takeWhile Char.isDigit
  match digits with
  | [] => none
  | '0' :: _ :: _ => none
  | _ => some (digits, cs.dropWhile Char.isDigit)

/-- The decimal places of a number, if any; a point needs at least one place behind it. -/
def places? : List Char → Option (List Char × List Char)
  | '.' :: cs =>
    let digits := cs.takeWhile Char.isDigit
    if digits.isEmpty then none else some (digits, cs.dropWhile Char.isDigit)
  | cs => some ([], cs)

/-- The exponent of a number, if any; `none` inside says that there is none. -/
def exponent? : List Char → Option (Option Int × List Char)
  | [] => some (none, [])
  | c :: cs =>
    if c == 'e' || c == 'E' then
      let (negative, rest) := Binary.splitSign cs
      let digits := rest.takeWhile Char.isDigit
      if digits.isEmpty then none
      else
        let n : Int := Binary.digitsValue digits
        some (some (if negative then -n else n), rest.dropWhile Char.isDigit)
    else some (none, c :: cs)

/-- The node of an integer that fits.  A zero with a minus sign is no integer. -/
def integer? (negative : Bool) (n : Nat) : Option Node :=
  if negative then
    if 0 < n && n ≤ 0x8000000000000000 then some (.int (Int64.ofInt (-n))) else none
  else if n < 0x10000000000000000 then some (.uint n.toUInt64)
  else none

def float? (negative : Bool) (n : Nat) (exponent : Int) : Option Node :=
  let x := Binary64.ofDecimal negative n exponent
  if x.isFinite then some (.float x) else none

def number? (negative : Bool) (cs : List Char) : Option (Node × List Char) := do
  let (whole, cs) ← whole? cs
  let (places, cs) ← places? cs
  let (exponent, cs) ← exponent? cs
  let n := Binary.digitsValue (whole ++ places)
  let plain := if places.isEmpty && exponent.isNone then integer? negative n else none
  let node ← plain.or (float? negative n (exponent.getD 0 - places.length))
  return (node, cs)

def hex4? (digits : List Char) : Option Nat :=
  digits.foldlM (fun n c =>
    if c.isDigit then some (16 * n + (c.toNat - '0'.toNat))
    else if 'a' ≤ c && c ≤ 'f' then some (16 * n + (c.toNat - 'a'.toNat + 10))
    else if 'A' ≤ c && c ≤ 'F' then some (16 * n + (c.toNat - 'A'.toNat + 10))
    else none) 0

def escape? : Char → Option Char
  | '"' => some '"'
  | '\\' => some '\\'
  | '/' => some '/'
  | 'b' => some '\x08'
  | 'f' => some '\x0c'
  | 'n' => some '\n'
  | 'r' => some '\r'
  | 't' => some '\t'
  | _ => none

/-- The characters up to the closing quote, and the rest after it.  Surrogates come in pairs, and
controls only as escapes. -/
def string? : List Char → Option (List Char × List Char)
  | [] => none
  | '"' :: rest => some ([], rest)
  | '\\' :: 'u' :: a :: b :: c :: d :: rest => do
    let unit ← hex4? [a, b, c, d]
    if 0xDC00 ≤ unit && unit ≤ 0xDFFF then none
    else if 0xD800 ≤ unit && unit ≤ 0xDBFF then
      match rest with
      | '\\' :: 'u' :: a :: b :: c :: d :: rest =>
        let low ← hex4? [a, b, c, d]
        if low < 0xDC00 || 0xDFFF < low then none
        let (text, rest) ← string? rest
        return (Char.ofNat (0x10000 + (unit - 0xD800) * 0x400 + (low - 0xDC00)) :: text, rest)
      | _ => none
    else
      let (text, rest) ← string? rest
      return (Char.ofNat unit :: text, rest)
  | '\\' :: c :: rest => do
    let c ← escape? c
    let (text, rest) ← string? rest
    return (c :: text, rest)
  | c :: rest =>
    if c.toNat < 0x20 || c == '\\' then none
    else do
      let (text, rest) ← string? rest
      return (c :: text, rest)

mutual

/-- The value at the start of a text.  `room` is the nesting still allowed; every call uses up one
unit of the first argument, and two units a character are enough. -/
def value? : Nat → (room : Nat) → List Char → Option (Node × List Char)
  | 0, _, _ => none
  | n + 1, room, cs =>
    match skipBlanks cs with
    | 'n' :: 'u' :: 'l' :: 'l' :: rest => some (.null, rest)
    | 't' :: 'r' :: 'u' :: 'e' :: rest => some (.bool true, rest)
    | 'f' :: 'a' :: 'l' :: 's' :: 'e' :: rest => some (.bool false, rest)
    | '"' :: rest => do
      let (text, rest) ← string? rest
      return (.text (String.ofList text), rest)
    | '[' :: rest =>
      match room with
      | 0 => none
      | room + 1 =>
        match skipBlanks rest with
        | ']' :: rest => some (.list [], rest)
        | rest => do
          let (items, rest) ← items? n room rest
          return (.list items, rest)
    | '\x7b' :: rest =>
      match room with
      | 0 => none
      | room + 1 =>
        match skipBlanks rest with
        | '\x7d' :: rest => some (.map [], rest)
        | rest => do
          let (entries, rest) ← entries? n room rest
          return (.ofEntries entries, rest)
    | '-' :: rest => number? true rest
    | rest => number? false rest

/-- The items of an array up to its closing bracket; at least one. -/
def items? : Nat → (room : Nat) → List Char → Option (List Node × List Char)
  | 0, _, _ => none
  | n + 1, room, cs => do
    let (item, rest) ← value? n room cs
    match skipBlanks rest with
    | ']' :: rest => return ([item], rest)
    | ',' :: rest =>
      let (items, rest) ← items? n room rest
      return (item :: items, rest)
    | _ => none

def entries? : Nat → (room : Nat) → List Char → Option (List (String × Node) × List Char)
  | 0, _, _ => none
  | n + 1, room, cs =>
    match skipBlanks cs with
    | '"' :: rest => do
      let (key, rest) ← string? rest
      match skipBlanks rest with
      | ':' :: rest =>
        let (value, rest) ← value? n room rest
        let entry := (String.ofList key, value)
        match skipBlanks rest with
        | '\x7d' :: rest => return ([entry], rest)
        | ',' :: rest =>
          let (entries, rest) ← entries? n room rest
          return (entry :: entries, rest)
        | _ => none
      | _ => none
    | _ => none

end

end Json

def Node.ofJson? (text : String) : Option Node :=
  let cs := text.toList
  (Json.value? (2 * cs.length + 2) 127 cs).map (·.1)

end ConfigBind
