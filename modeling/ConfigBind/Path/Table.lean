import ConfigBind.Path.Basic

/-!
# Paths over a shared text

How a path is kept in memory: one text, a table of where its segments lie in the text, in bytes of
UTF-8, and the window of the table that the path covers.  Cutting a path only moves the window.
Joining two paths writes both into a new text and records where the segments come to lie, so no text
is read twice.

Every look at a segment cuts its range out of the text.  `none` stands for a range that is not in
the text or ends inside a character, and for a window that is not in the table.
-/

namespace ConfigBind

namespace Text

def bytes : List Char → Nat
  | [] => 0
  | c :: cs => c.utf8Size + bytes cs

/-- The text before a byte position and the text after it, if a character ends or begins there. -/
def splitAt? : List Char → Nat → Option (List Char × List Char)
  | cs, 0 => some ([], cs)
  | [], _ + 1 => none
  | c :: cs, n + 1 =>
    if c.utf8Size ≤ n + 1 then
      (splitAt? cs (n + 1 - c.utf8Size)).map fun (before, after) => (c :: before, after)
    else none

def cut? (cs : List Char) (start stop : Nat) : Option (List Char) :=
  if stop < start then none
  else do
    let (_, rest) ← splitAt? cs start
    let (text, _) ← splitAt? rest (stop - start)
    return text

end Text

namespace Path

/-- Where a segment lies in a text, in bytes. -/
structure Range where
  start : Nat
  stop : Nat
  kind : SegmentKind
  deriving DecidableEq, Repr

def Range.shift (n : Nat) (r : Range) : Range := ⟨r.start + n, r.stop + n, r.kind⟩

/-- The reading of a text under way: the bracket depth, where the open segment starts and its kind,
whether a closing bracket was met without its opening one, and the ranges found. -/
structure Reader where
  depth : Int
  start : Nat
  kind : SegmentKind
  stray : Bool
  ranges : List Range
  deriving DecidableEq, Repr

namespace Reader

def initial : Reader := ⟨0, 0, .blank, false, []⟩

/-- Ends the open segment, which is plain, if there is anything of it before the position. -/
def endPlain (r : Reader) (position : Nat) : Reader :=
  if r.start < position then
    { r with ranges := r.ranges ++ [⟨r.start, position, r.kind.close⟩] }
  else r

def step (separator : Char) (position : Nat) (r : Reader) (c : Char) : Reader :=
  if c = '[' then
    if r.depth = 0 then
      { r.endPlain position with start := position + 1, kind := .bracketed, depth := 1 }
    else { r with depth := r.depth + 1 }
  else if c = ']' then
    if r.depth - 1 < 0 then { r with depth := r.depth - 1, stray := true }
    else if r.depth - 1 = 0 then
      { r with
        depth := 0
        ranges := r.ranges ++ [⟨r.start, position, r.kind⟩]
        start := position + 1
        kind := .blank }
    else { r with depth := r.depth - 1 }
  else if c = separator ∧ r.depth = 0 then
    { r.endPlain position with start := position + c.utf8Size, kind := .blank }
  else { r with kind := r.kind.refine c }

def finish (r : Reader) (position : Nat) : List Range :=
  let kind := if r.depth ≠ 0 ∨ r.stray then { r.kind with corrupted := true } else r.kind
  if r.start < position then r.ranges ++ [⟨r.start, position, kind.close⟩]
  else if !kind.isBlank || r.ranges.isEmpty then r.ranges ++ [⟨r.start, position, kind⟩]
  else r.ranges

def run (separator : Char) (position : Nat) (r : Reader) : List Char → List Range
  | [] => r.finish position
  | c :: cs => run separator (position + c.utf8Size) (r.step separator position c) cs

end Reader

/-- A text with the ranges of its segments, and the window of them that a path covers. -/
structure Table where
  text : String
  ranges : List Range
  start : Nat
  stop : Nat
  separator : Char
  deriving DecidableEq, Repr

namespace Table

def whole (text : String) (ranges : List Range) (separator : Char) : Table :=
  ⟨text, ranges, 0, ranges.length, separator⟩

def parse (separator : Char) (text : String) : Table :=
  whole text (Reader.initial.run separator 0 text.toList) separator

def empty : Table := whole "" [] '.'

/-- Whether the window is all of the table, so that the text is what the path renders as. -/
def isWhole (t : Table) : Bool := t.start == 0 && t.stop == t.ranges.length

def size (t : Table) : Nat := t.stop - t.start

def isEmpty (t : Table) : Bool := t.size == 0 || t.isWhole && t.text == ""

def window? (t : Table) : Option (List Range) :=
  if t.start ≤ t.stop ∧ t.stop ≤ t.ranges.length then some ((t.ranges.take t.stop).drop t.start)
  else none

def cut? (t : Table) (r : Range) : Option Segment :=
  (Text.cut? t.text.toList r.start r.stop).map fun cs => ⟨String.ofList cs, r.kind⟩

def segments? (t : Table) : Option (List Segment) := do (← t.window?).mapM t.cut?

def startsIndexed? (t : Table) : Option Bool :=
  if t.isWhole then some (t.text.toList.head? == some '[')
  else t.window?.map (·.head?.any (·.kind.indexed))

def slice (t : Table) (start stop : Nat) : Except PathError Table :=
  if stop < start then .error (.invalidRange start stop)
  else if t.size < stop then .error (.outOfBounds stop t.size)
  else .ok { t with start := t.start + start, stop := t.start + stop }

def take (t : Table) (limit : Nat) : Table :=
  { t with stop := t.start + min limit t.size }

/-- Writes a segment behind a text, and records where it comes to lie. -/
def writeSegment? (t : Table) (starts : Bool) (out : List Char × List Range) (r : Range) :
    Option (List Char × List Range) := do
  let s ← t.cut? r
  let before := out.1 ++
    if s.kind.indexed then ['['] else if starts then [] else [t.separator]
  let after := if s.kind.indexed && !s.kind.corrupted then [']'] else []
  let start := Text.bytes before
  return (before ++ s.text.toList ++ after,
    out.2 ++ [⟨start, start + Text.bytes s.text.toList, s.kind⟩])

/-- Writes the path behind a text, and records where its segments come to lie. -/
def write? (t : Table) (out : List Char × List Range) : Option (List Char × List Range) :=
  if t.isWhole then
    some (out.1 ++ t.text.toList, out.2 ++ t.ranges.map (Range.shift (Text.bytes out.1)))
  else do
    match ← t.window? with
    | [] => return out
    | r :: rest => rest.foldlM (t.writeSegment? false) (← t.writeSegment? true out r)

def render? (t : Table) : Option String := (t.write? ([], [])).map fun out => String.ofList out.1

def append? (t u : Table) : Option Table :=
  if u.isEmpty then some t
  else if t.isEmpty then some u
  else do
    let (text, ranges) ← t.write? ([], [])
    let joint := if ← u.startsIndexed? then [] else [t.separator]
    let (text, ranges) ← u.write? (text ++ joint, ranges)
    return whole (String.ofList text) ranges t.separator

/-- The path that is kept. -/
def toPath? (t : Table) : Option Path := do
  return ⟨← t.segments?, if t.isWhole then some t.text else none, t.separator⟩

end Table

end Path

end ConfigBind
