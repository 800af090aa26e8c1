import ConfigBind.Binary.Format

/-!
# Reading floating-point text

The grammar of a number: an optional sign, then `inf`, `infinity` or `nan` in any case, or decimal
digits with an optional point among them and an optional exponent.  At least one digit stands
before or after the point, and at least one in an exponent.  The number is the one nearest to the
decimal value.
-/

namespace ConfigBind.Binary

def digitsValue (digits : List Char) : Nat :=
  digits.foldl (fun n c => 10 * n + (c.toNat - '0'.toNat)) 0

/-- An optional sign: whether it is a minus, and the rest. -/
def splitSign : List Char → Bool × List Char
  | '-' :: rest => (true, rest)
  | '+' :: rest => (false, rest)
  | rest => (false, rest)

def exponent? : List Char → Option Int
  | [] => some 0
  | c :: rest =>
    let (negative, digits) := splitSign rest
    if (c == 'e' || c == 'E') && !digits.isEmpty && digits.all Char.isDigit then
      some (if negative then -(digitsValue digits : Int) else digitsValue digits)
    else none

/-- A number without sign, as digits and a power of ten. -/
def decimal? (cs : List Char) : Option (Nat × Int) :=
  let whole := cs.takeWhile Char.isDigit
  let (places, rest) :=
    match cs.dropWhile Char.isDigit with
    | '.' :: rest => (rest.takeWhile Char.isDigit, rest.dropWhile Char.isDigit)
    | rest => ([], rest)
  if whole.isEmpty && places.isEmpty then none
  else (exponent? rest).map fun e => (digitsValue (whole ++ places), e - places.length)

def Format.read? (f : Format) (text : List Char) : Option Nat :=
  let (negative, cs) := splitSign text
  let word := String.ofList (cs.map Char.toLower)
  if word == "inf" || word == "infinity" then some (f.withSign negative f.infinity)
  else if word == "nan" then some f.notANumber
  else (decimal? cs).map fun (digits, e) => f.roundDecimal negative digits e

end ConfigBind.Binary

namespace ConfigBind

def Binary64.ofText? (text : List Char) : Option Binary64 :=
  (Binary.Format.double.read? text).map .ofPattern

def Binary32.ofText? (text : List Char) : Option Binary32 :=
  (Binary.Format.single.read? text).map .ofPattern

end ConfigBind
