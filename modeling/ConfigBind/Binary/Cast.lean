import ConfigBind.Binary.Format

/-!
# Comparing floating-point numbers and casting them

Numbers compare by what they stand for: the two zeros are the same, infinities lie beyond all finite
numbers, and what is not a number compares with nothing.  A cast to an integer drops what is behind
the point and saturates: a number beyond the range becomes the nearest end of the range, and what is
not a number becomes zero.
-/

namespace ConfigBind

namespace Binary.Reading

def numerator (negative : Bool) (mantissa : Nat) (exponent : Int) : Int :=
  let magnitude : Int := (mantissa * Nat.pow 2 exponent.toNat : Nat)
  if negative then -magnitude else magnitude

/-- The denominator of a finite number, which is a power of two. -/
def denominator (exponent : Int) : Nat := Nat.pow 2 (-exponent).toNat

/-- How two numbers compare, if both are numbers. -/
def compare? : Reading → Reading → Option Ordering
  | notANumber, _ | _, notANumber => none
  | infinite a, infinite b => some (compare b a)
  | infinite a, finite .. => some (if a then .lt else .gt)
  | finite .., infinite b => some (if b then .gt else .lt)
  | finite a m e, finite b k f =>
    some (compare (numerator a m e * denominator f) (numerator b k f * denominator e))

/-- The number without what is behind its point, and no further than the ends of a range. -/
def truncate (lowest highest : Int) : Reading → Int
  | notANumber => 0
  | infinite negative => if negative then lowest else highest
  | finite negative m e =>
    max lowest (min highest ((numerator negative m e).tdiv (denominator e)))

end Binary.Reading

namespace Binary64

def isNaN (x : Binary64) : Bool := x.decode == .notANumber

def lt (x y : Binary64) : Bool := x.decode.compare? y.decode == some .lt

/-- The two are the same number; the zeros are, and no NaN is. -/
def same (x y : Binary64) : Bool := x.decode.compare? y.decode == some .eq

def le (x y : Binary64) : Bool := x.lt y || x.same y

def within (x start stop : Binary64) : Bool := start.le x && x.lt stop

def toInt64 (x : Binary64) : Int64 :=
  .ofInt (x.decode.truncate (-0x8000000000000000) 0x7FFFFFFFFFFFFFFF)

def toUInt64 (x : Binary64) : UInt64 := .ofNat (x.decode.truncate 0 0xFFFFFFFFFFFFFFFF).toNat

end Binary64

end ConfigBind
