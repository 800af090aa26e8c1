import ConfigBind.Binary.Format

/-!
# Shortest decimal text

The decimal text of a number: the digits on the coarsest grid of powers of ten that has a point
closer to the number than to any other number of the format, and on that grid the nearest point,
the upper one of two equally near.

`Style.positional` writes these digits around a decimal point, however small or large the number.
`Style.general` writes at least one decimal place, and an exponent where the number is below
`10 ^ -4` or not below `10 ^ 16`.
-/

namespace ConfigBind.Binary

/-- A finite magnitude with the ends of the interval of reals that round to it, all three in units
of `2 ^ exponent`.  The ends belong to the interval when `closed`. -/
structure Neighbourhood where
  low : Nat
  centre : Nat
  high : Nat
  exponent : Int
  closed : Bool
  deriving Repr

/-- The interval of reals nearest to `m * 2 ^ e`.  Below a power of two the next number is only
half as far away. -/
def Neighbourhood.ofFinite (f : Format) (m : Nat) (e : Int) : Neighbourhood :=
  let below := if m = Nat.pow 2 f.mantissaBits then 1 else 2
  ⟨4 * m - below, 4 * m, 4 * m + 2, e - 2, m % 2 == 0⟩

structure Decimal where
  digits : Nat
  exponent : Int
  deriving DecidableEq, Repr

namespace Neighbourhood

/-- The number of grid steps up to a bound of the interval, as a fraction. -/
def steps (n : Neighbourhood) (grid : Int) (bound : Nat) : Nat × Nat :=
  (bound * Nat.pow 2 n.exponent.toNat * Nat.pow 10 (-grid).toNat,
    Nat.pow 2 (-n.exponent).toNat * Nat.pow 10 grid.toNat)

def aboveLow (n : Neighbourhood) (grid : Int) (q : Nat) : Bool :=
  let (num, den) := n.steps grid n.low
  if n.closed then num ≤ q * den else num < q * den

def belowHigh (n : Neighbourhood) (grid : Int) (q : Nat) : Bool :=
  let (num, den) := n.steps grid n.high
  if n.closed then q * den ≤ num else q * den < num

/-- The point of the grid in the interval, if any: of the two points around the centre the one in
the interval, of two such points the nearer, and the upper one in a tie. -/
def pointOn? (n : Neighbourhood) (grid : Int) : Option Nat :=
  let (num, den) := n.steps grid n.centre
  let q := num / den
  match n.aboveLow grid q, n.belowHigh grid (q + 1) with
  | true, true => some (if 2 * (num % den) < den then q else q + 1)
  | true, false => some q
  | false, true => some (q + 1)
  | false, false => none

/-- The first hit among the next `count` grids, from coarse to fine.  The grid after them is fine
enough to hold the centre itself. -/
def search (n : Neighbourhood) : (count : Nat) → (grid : Int) → Decimal
  | 0, grid => let (num, den) := n.steps grid n.centre; ⟨num / den, grid⟩
  | count + 1, grid =>
    match n.pointOn? grid with
    | some q => ⟨q, grid⟩
    | none => n.search count (grid - 1)

/-- The shortest decimal in the interval.  The search starts on a grid wider than the upper end,
`2 ^ k` being at least `10 ^ (3 * k / 10)`, and ends where the centre is a grid point. -/
def shortest (n : Neighbourhood) : Decimal :=
  let finest := min 0 n.exponent
  let scaled := n.high * Nat.pow 2 n.exponent.toNat
  let coarsest := ((Nat.toDigits 10 scaled).length : Int) - (3 * (-n.exponent).toNat / 10 : Nat)
  n.search (coarsest - finest).toNat coarsest

end Neighbourhood

/-- Where a decimal text needs an exponent, and how many decimal places it has at least. -/
structure Style where
  /-- Positional text is for decimal points this far to the right of the first digit at most. -/
  lowest : Option Int
  highest : Option Int
  minPlaces : Nat
  deriving Repr

def Style.positional : Style := ⟨none, none, 0⟩

/-- An exponent below `10 ^ -4` and from `10 ^ 16` on; at least one decimal place otherwise. -/
def Style.general : Style := ⟨some (-3), some 16, 1⟩

def positionalText (minPlaces : Nat) (d : Decimal) : List Char :=
  let digits := Nat.toDigits 10 d.digits
  if 0 ≤ d.exponent then
    digits ++ List.replicate d.exponent.toNat '0' ++
      (if minPlaces = 0 then [] else '.' :: List.replicate minPlaces '0')
  else
    let places := (-d.exponent).toNat
    let padded := List.replicate (places + 1 - digits.length) '0' ++ digits
    let point := padded.length - places
    padded.take point ++ '.' :: padded.drop point

def exponentText (d : Decimal) : List Char :=
  let digits := Nat.toDigits 10 d.digits
  let exponent := d.exponent + (digits.length - 1 : Nat)
  digits.take 1 ++ (if digits.length = 1 then [] else '.' :: digits.drop 1) ++
    'e' :: (toString exponent).toList

def Style.decimalText (style : Style) (d : Decimal) : List Char :=
  let point := d.exponent + (Nat.toDigits 10 d.digits).length
  if style.lowest.any (point < ·) || style.highest.any (· < point) then exponentText d
  else positionalText style.minPlaces d

def Style.text (style : Style) (f : Format) (bits : Nat) : String :=
  match f.decode bits with
  | .notANumber => "NaN"
  | .infinite negative => if negative then "-inf" else "inf"
  | .finite negative m e =>
    let digits := if m = 0 then positionalText style.minPlaces ⟨0, 0⟩
      else style.decimalText (Neighbourhood.ofFinite f m e).shortest
    String.ofList ((if negative then ['-'] else []) ++ digits)

end ConfigBind.Binary

namespace ConfigBind.Binary64

def text (x : Binary64) : String := Binary.Style.positional.text .double x.bits.toNat

def describe (x : Binary64) : String := Binary.Style.general.text .double x.bits.toNat

end ConfigBind.Binary64
