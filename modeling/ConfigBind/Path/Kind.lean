/-!
# Kinds of path segments

What a path segment is made of: a set of five marks.  A scanner starts from the set its position
fixes (no mark, or `indexed` inside brackets) and refines it with every character it reads.
-/

namespace ConfigBind

structure SegmentKind where
  /-- The segment has a letter, or is plain text without any letter, digit or dash. -/
  named : Bool
  /-- The segment was written inside brackets. -/
  indexed : Bool
  /-- A digit comes before any letter. -/
  numeric : Bool
  /-- The segment has a dash. -/
  dashed : Bool
  /-- The brackets of the path it ends are not balanced. -/
  corrupted : Bool
  deriving DecidableEq, Repr

namespace SegmentKind

def blank : SegmentKind := ⟨false, false, false, false, false⟩

def bracketed : SegmentKind := { blank with indexed := true }

def isBlank (k : SegmentKind) : Bool := k == blank

/-- The kind once `c` has been read as well.  A digit counts only while no letter has been read. -/
def refine (k : SegmentKind) (c : Char) : SegmentKind :=
  if c.isAlpha then { k with named := true }
  else if c.isDigit && !k.named then { k with numeric := true }
  else if c = '-' then { k with dashed := true }
  else k

/-- The kind of a finished plain segment: one without any mark counts as named. -/
def close (k : SegmentKind) : SegmentKind :=
  if k.isBlank then { blank with named := true } else k

/-- The marks of a bit mask; bits that stand for no mark are dropped. -/
def ofBits (bits : Nat) : SegmentKind :=
  ⟨bits.testBit 2, bits.testBit 4, bits.testBit 6, bits.testBit 8, bits.testBit 10⟩

def names (k : SegmentKind) : List String :=
  [(k.named, "DEFAULT"), (k.indexed, "INDEXED"), (k.numeric, "NUMERIC"), (k.dashed, "DASHED"),
    (k.corrupted, "CORRUPTED")].filterMap fun (isSet, name) => if isSet then some name else none

/-- The written form: the names joined by an ampersand, in brackets. -/
def render (k : SegmentKind) : String :=
  if k.isBlank then "[EMPTY]" else "[" ++ " & ".intercalate k.names ++ "]"

instance : ToString SegmentKind := ⟨render⟩

end SegmentKind

end ConfigBind
