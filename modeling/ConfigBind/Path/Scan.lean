import ConfigBind.Path.Kind

/-!
# Scanning a path

`scan` cuts a text into the spans of its segments in one pass.  Every character either ends a
span (an outermost bracket, or a separator outside brackets) or belongs to the span that is open,
so the spans lie in the text one after the other and a span is known by its start and its text.

Brackets nest.  When they are not balanced the scan still covers the whole text, and marks the
last span as corrupted.
-/

namespace ConfigBind

structure Span where
  start : Nat
  text : List Char
  kind : SegmentKind
  deriving DecidableEq, Repr

def Span.stop (s : Span) : Nat := s.start + s.text.length

/-- A scan under way: the bracket depth, the span that is open, and whether a closing bracket has
been met without its opening one, which no later bracket makes good. -/
structure Scanner where
  depth : Int
  start : Nat
  pending : List Char
  kind : SegmentKind
  stray : Bool
  deriving DecidableEq, Repr

namespace Scanner

def initial : Scanner := ⟨0, 0, [], .blank, false⟩

def push (s : Scanner) (c : Char) : Scanner := { s with pending := s.pending ++ [c] }

def reopen (s : Scanner) (k : SegmentKind) : Scanner :=
  { s with start := s.start + s.pending.length + 1, pending := [], kind := k }

/-- The open span as a plain segment; without any text there is none. -/
def plain (s : Scanner) : List Span :=
  if s.pending.isEmpty then [] else [⟨s.start, s.pending, s.kind.close⟩]

/-- The scan after `c`, and the span that `c` ended, if any. -/
def step (separator : Char) (s : Scanner) (c : Char) : List Span × Scanner :=
  if c = '[' then
    if s.depth = 0 then (s.plain, { s.reopen .bracketed with depth := 1 })
    else ([], { s.push c with depth := s.depth + 1 })
  else if c = ']' then
    if s.depth = 1 then ([⟨s.start, s.pending, s.kind⟩], { s.reopen .blank with depth := 0 })
    else ([], { s.push c with depth := s.depth - 1, stray := s.stray || s.depth ≤ 0 })
  else if c = separator ∧ s.depth = 0 then (s.plain, s.reopen .blank)
  else ([], { s.push c with kind := s.kind.refine c })

/-- The span that is still open at the end.  An open span without text counts only if it carries a
mark, or if the text has no other span. -/
def finish (s : Scanner) (found : Bool) : List Span :=
  let kind := if s.depth ≠ 0 ∨ s.stray then { s.kind with corrupted := true } else s.kind
  if !s.pending.isEmpty then [⟨s.start, s.pending, kind.close⟩]
  else if !kind.isBlank || !found then [⟨s.start, [], kind⟩]
  else []

/-- The spans of the remaining characters; `found` tells whether there was one before. -/
def run (separator : Char) (found : Bool) (s : Scanner) : List Char → List Span
  | [] => s.finish found
  | c :: cs =>
    let (ended, next) := s.step separator c
    ended ++ next.run separator (found || !ended.isEmpty) cs

end Scanner

def scan (separator : Char) (text : List Char) : List Span :=
  Scanner.initial.run separator false text

end ConfigBind
