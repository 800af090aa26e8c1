import ConfigBind.Path.Scan
import ConfigBind.Text.Basic

/-!
# Property paths

A `Path` such as `server.hosts[0].name` is a list of segments, together with the text it
renders as.  A path that was parsed or merged keeps its text and renders it verbatim; a proper
part of a path (`slice`, `drop`, `take`) has no text of its own and renders canonically, plain
segments after the separator and indexed ones in brackets.

`append` joins two paths without parsing again: the segments are those of the left path followed
by those of the right one, and so is the text.

`element` and `atKey?` are the paths of a list element and of a map entry.  An element is always
written in brackets.  A key is written plainly where that reads back as one segment; an empty key,
and one that holds a separator or a bracket, goes into brackets.  A key whose own brackets are not
balanced has no path.
-/

namespace ConfigBind

/-- One step of a path: its text without brackets, and its kind. -/
structure Segment where
  text : String
  kind : SegmentKind
  deriving DecidableEq, Repr

namespace Segment

/-- The list index a segment stands for: decimal digits only, below 2^64, brackets balanced. -/
def index? (s : Segment) : Option Nat :=
  let digits := s.text.toList
  if s.kind.corrupted || digits.isEmpty || !digits.all Char.isDigit then none
  else
    let n := digits.foldl (fun n c => 10 * n + (c.toNat - '0'.toNat)) 0
    if n < 0x10000000000000000 then some n else none

/-- The canonical form of a segment that follows others, or starts a path.  A corrupted bracket
stays open. -/
def canonical (separator : Char) (starts : Bool) (s : Segment) : List Char :=
  if s.kind.indexed then
    '[' :: s.text.toList ++ (if s.kind.corrupted then [] else [']'])
  else (if starts then [] else [separator]) ++ s.text.toList

def canonicalAll (separator : Char) : List Segment → List Char
  | [] => []
  | s :: rest => s.canonical separator true ++ rest.flatMap (canonical separator false)

end Segment

inductive PathError
  | outOfBounds (index size : Nat)
  | invalidRange (start stop : Nat)
  deriving DecidableEq, Repr

def PathError.message : PathError → String
  | outOfBounds index size => s!"Index {index} is out of bounds for a path of {size} segments"
  | invalidRange start stop =>
    s!"Invalid range: start({start}) must be less than or equal to end({stop})"

def PathError.code : PathError → String
  | outOfBounds .. => "OutOfBounds"
  | invalidRange .. => "InvalidRange"

structure Path where
  segments : List Segment
  /-- The text of the whole path; a proper part of a path has none. -/
  source : Option String
  separator : Char
  deriving DecidableEq, Repr

namespace Path

/-- Parses a text.  Brackets delimit indexed segments whatever the separator. -/
def parseWith (separator : Char) (text : String) : Path where
  segments := (scan separator text.toList).map fun s => ⟨String.ofList s.text, s.kind⟩
  source := some text
  separator

def parse (text : String) : Path := parseWith '.' text

def empty : Path := ⟨[], some "", '.'⟩

def size (p : Path) : Nat := p.segments.length

def render (p : Path) : String :=
  match p.source with
  | some text => text
  | none => String.ofList (Segment.canonicalAll p.separator p.segments)

instance : ToString Path := ⟨render⟩

/-- Whether the path renders as the empty text. -/
def isEmpty (p : Path) : Bool := p.segments.isEmpty || p.source == some ""

def segment? (p : Path) (i : Nat) : Option Segment := p.segments[i]?

def text? (p : Path) (i : Nat) : Option String := (p.segment? i).map (·.text)

def kind? (p : Path) (i : Nat) : Option SegmentKind := (p.segment? i).map (·.kind)

def byteSize? (p : Path) (i : Nat) : Option Nat := (p.segment? i).map (·.text.utf8ByteSize)

def first? (p : Path) : Option Segment := p.segments.head?

def last? (p : Path) : Option Segment := p.segments.getLast?

def isLast (p : Path) (i : Nat) : Bool := p.size == i + 1

def isCorrupted (p : Path) : Bool := p.segments.any (·.kind.corrupted)

/-- The segments from `start` to before `stop`, which must lie in the path.  All of a path is the
path itself, with its text. -/
def window (p : Path) (start stop : Nat) : Path :=
  if start = 0 ∧ stop = p.size then p
  else { p with segments := (p.segments.take stop).drop start, source := none }

/-- The segments from `start` to before `stop`, if these are in order and in range. -/
def slice (p : Path) (start stop : Nat) : Except PathError Path :=
  if stop < start then .error (.invalidRange start stop)
  else if p.size < stop then .error (.outOfBounds stop p.size)
  else .ok (p.window start stop)

def drop (p : Path) (count : Nat) : Except PathError Path := p.slice count p.size

def take (p : Path) (limit : Nat) : Path := p.window 0 (min limit p.size)

/-- Whether the path renders with a bracket in front. -/
def startsIndexed (p : Path) : Bool :=
  match p.source with
  | some text => text.toList.head? == some '['
  | none => p.segments.head?.any (·.kind.indexed)

/-- `p` followed by `q`.  An empty side drops out; otherwise the separator of `p` goes in between,
unless `q` starts with a bracket. -/
def append (p q : Path) : Path :=
  if q.isEmpty then p
  else if p.isEmpty then q
  else
    let joint := if q.startsIndexed then "" else p.separator.toString
    ⟨p.segments ++ q.segments, some (p.render ++ joint ++ q.render), p.separator⟩

instance : Append Path := ⟨append⟩

def appendText (p : Path) (text : String) : Path := p ++ parseWith p.separator text

def prependText (p : Path) (text : String) : Path := parseWith p.separator text ++ p

/-- Two paths are the same when they render alike. -/
def same (p q : Path) : Bool := p.render == q.render

def describe (p : Path) : String := "NamePath(" ++ Text.quoted p.render ++ ")"

/-! ## Paths of children -/

def element (p : Path) (i : Nat) : Path := p.appendText s!"[{i}]"

/-- Whether a key needs brackets around it. -/
def needsBrackets (separator : Char) (key : String) : Bool :=
  key.isEmpty || key.toList.any fun c => c == separator || c == '[' || c == ']'

/-- The path of the entry under `key`, if one more segment can hold the key. -/
def atKey? (p : Path) (key : String) : Option Path :=
  let child := if needsBrackets p.separator key then p.appendText ("[" ++ key ++ "]")
    else p.appendText key
  if child.size = p.size + 1 && child.last?.any (fun s => s.text == key && !s.kind.corrupted)
  then some child else none

end Path

end ConfigBind
