import ConfigBind.Text.Unprintable

/-!
# Blanks and quotes

Texts without the blanks around them, and texts between double quotes, with the escapes that make
every character visible.  A blank is any of the 25 characters of property `White_Space`, which are
more than those of core's `Char.isWhitespace`.
-/

namespace ConfigBind.Text

def isBlank (c : Char) : Bool :=
  let n := c.toNat
  (0x09 ≤ n && n ≤ 0x0D) || n == 0x20 || n == 0x85 || n == 0xA0 || n == 0x1680 ||
    (0x2000 ≤ n && n ≤ 0x200A) || n == 0x2028 || n == 0x2029 || n == 0x202F || n == 0x205F ||
    n == 0x3000

/-- The text without the blanks at its two ends. -/
def trim (cs : List Char) : List Char :=
  ((cs.dropWhile isBlank).reverse.dropWhile isBlank).reverse

def hexDigits (n : Nat) : List Char := Nat.toDigits 16 n

/-- One character inside quotes: five short escapes, the quote and the backslash after a
backslash, and the code point of whatever has no glyph of its own. -/
def escapeChar (c : Char) : List Char :=
  match c with
  | '\x00' => ['\\', '0']
  | '\t' => ['\\', 't']
  | '\n' => ['\\', 'n']
  | '\r' => ['\\', 'r']
  | '"' => ['\\', '"']
  | '\\' => ['\\', '\\']
  | c =>
    if c.toNat < 0x20 || (0x7F ≤ c.toNat && isUnprintable c) then
      ['\\', 'u', '\x7b'] ++ hexDigits c.toNat ++ ['\x7d']
    else [c]

def quoted (s : String) : String :=
  String.ofList ('"' :: s.toList.flatMap escapeChar ++ ['"'])

end ConfigBind.Text
