/-!
# Binary floating point

A floating-point number is a bit pattern of a `Format`.  `Format.decode` reads a pattern as what it
stands for, a finite one as `± m * 2 ^ e` with a natural number `m`; `Format.round` is the pattern
nearest to a fraction, ties to even.  Both work in exact arithmetic on naturals and integers.

Consecutive patterns stand for consecutive magnitudes, so the pattern of `m * 2 ^ e` is its number
of places above the pattern of zero, and a mantissa that rounds up past its last bit needs no case
of its own.
-/

namespace ConfigBind

namespace Binary

/-- A binary interchange format: the width of the stored mantissa and of the exponent. -/
structure Format where
  mantissaBits : Nat
  exponentBits : Nat
  deriving DecidableEq, Repr

inductive Reading
  | notANumber
  | infinite (negative : Bool)
  /-- The number `mantissa * 2 ^ exponent`, or its negative. -/
  | finite (negative : Bool) (mantissa : Nat) (exponent : Int)
  deriving DecidableEq, Repr

namespace Format

def double : Format := ⟨52, 11⟩

def single : Format := ⟨23, 8⟩

/-- The largest exponent field, which marks infinities and patterns that are no number. -/
def specialExponent (f : Format) : Nat := Nat.pow 2 f.exponentBits - 1

/-- The exponent of the last mantissa bit of the smallest numbers. -/
def minExponent (f : Format) : Int := 2 - Nat.pow 2 (f.exponentBits - 1) - f.mantissaBits

def signBit (f : Format) : Nat := Nat.pow 2 (f.mantissaBits + f.exponentBits)

def infinity (f : Format) : Nat := f.specialExponent * Nat.pow 2 f.mantissaBits

/-- The one pattern used for what is not a number. -/
def notANumber (f : Format) : Nat := f.infinity + Nat.pow 2 (f.mantissaBits - 1)

def withSign (f : Format) (negative : Bool) (magnitude : Nat) : Nat :=
  if negative then f.signBit + magnitude else magnitude

def decode (f : Format) (bits : Nat) : Reading :=
  let negative := bits.testBit (f.mantissaBits + f.exponentBits)
  let stored := bits % Nat.pow 2 f.mantissaBits
  let field := bits / Nat.pow 2 f.mantissaBits % Nat.pow 2 f.exponentBits
  if field = f.specialExponent then
    if stored = 0 then .infinite negative else .notANumber
  else if field = 0 then .finite negative stored f.minExponent
  else .finite negative (Nat.pow 2 f.mantissaBits + stored) (f.minExponent + (field - 1 : Nat))

/-- The quotient of two naturals rounded to the nearest integer, ties to even. -/
def nearest (num den : Nat) : Nat :=
  let q := num / den
  let r := num % den
  if 2 * r > den || (2 * r == den && q % 2 == 1) then q + 1 else q

/-- The number of places by which `num / den` exceeds a power of two: the integer `k` with
`2 ^ k ≤ num / den < 2 ^ (k + 1)`. -/
def magnitude (num den : Nat) : Int :=
  let k : Int := (num.log2 : Int) - den.log2
  if den <<< k.toNat ≤ num <<< (-k).toNat then k else k - 1

/-- The pattern, without sign, nearest to `num / den`. -/
def roundMagnitude (f : Format) (num den : Nat) : Nat :=
  if num = 0 then 0
  else
    let e := max f.minExponent (magnitude num den - f.mantissaBits)
    let m := nearest (num <<< (-e).toNat) (den <<< e.toNat)
    min f.infinity ((e - f.minExponent).toNat * Nat.pow 2 f.mantissaBits + m)

def round (f : Format) (negative : Bool) (num den : Nat) : Nat :=
  f.withSign negative (f.roundMagnitude num den)

/-- The pattern nearest to `± num * 10 ^ exponent`.  A magnitude far outside the format's range is
decided by its number of digits, without forming the power. -/
def roundDecimal (f : Format) (negative : Bool) (num : Nat) (exponent : Int) : Nat :=
  let reach : Int := Nat.pow 2 f.exponentBits
  let digits : Int := (Nat.toDigits 10 num).length
  if num = 0 || digits + exponent < -reach then f.withSign negative 0
  else if digits + exponent > reach then f.withSign negative f.infinity
  else f.round negative (num * Nat.pow 10 exponent.toNat) (Nat.pow 10 (-exponent).toNat)

def convert (f g : Format) (bits : Nat) : Nat :=
  match f.decode bits with
  | .notANumber => g.notANumber
  | .infinite negative => g.withSign negative g.infinity
  | .finite negative m e => g.round negative (m <<< e.toNat) (1 <<< (-e).toNat)

end Format

end Binary

structure Binary64 where
  bits : UInt64
  deriving DecidableEq, Repr

structure Binary32 where
  bits : UInt32
  deriving DecidableEq, Repr

namespace Binary64

open Binary

def ofPattern (n : Nat) : Binary64 := ⟨n.toUInt64⟩

def decode (x : Binary64) : Reading := Format.double.decode x.bits.toNat

def ofInt (n : Int) : Binary64 := ofPattern (Format.double.round (n < 0) n.natAbs 1)

def ofDecimal (negative : Bool) (num : Nat) (exponent : Int) : Binary64 :=
  ofPattern (Format.double.roundDecimal negative num exponent)

def negate (x : Binary64) : Binary64 := ⟨x.bits ^^^ 0x8000000000000000⟩

def isFinite (x : Binary64) : Bool :=
  match x.decode with
  | .finite .. => true
  | _ => false

def narrow (x : Binary64) : Binary32 :=
  ⟨(Format.double.convert .single x.bits.toNat).toUInt32⟩

end Binary64

namespace Binary32

open Binary

def ofPattern (n : Nat) : Binary32 := ⟨n.toUInt32⟩

def decode (x : Binary32) : Reading := Format.single.decode x.bits.toNat

def ofInt (n : Int) : Binary32 := ofPattern (Format.single.round (n < 0) n.natAbs 1)

def widen (x : Binary32) : Binary64 :=
  .ofPattern (Format.single.convert .double x.bits.toNat)

end Binary32

end ConfigBind
