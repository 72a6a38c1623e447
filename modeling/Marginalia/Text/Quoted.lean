import Marginalia.Text.Printable

namespace Marginalia.Text

-- A code point in hexadecimal between braces.
def codeEscape (c : Char) : List Char :=
  ['\\', 'u', '\x7b'] ++ Nat.toDigits 16 c.toNat ++ ['\x7d']

-- One character of a quoted text. What does not print by itself is written by its code; the
-- single quote is escaped only where the caller says so.
def escape (single : Bool) (c : Char) : List Char :=
  if c = '\x00' then ['\\', '0']
  else if c = '\t' then ['\\', 't']
  else if c = '\r' then ['\\', 'r']
  else if c = '\n' then ['\\', 'n']
  else if c = '\\' || c = '"' || (single && c = '\x27') then ['\\', c]
  else if graphemeExtend.holds c then codeEscape c
  else if isPrintable c then [c]
  else codeEscape c

-- A text between double quotes.
def quote (single : Bool) (text : List Char) : List Char :=
  ['"'] ++ text.flatMap (escape single) ++ ['"']

end Marginalia.Text
