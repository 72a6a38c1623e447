import Marginalia.Binary.Nearest
import Marginalia.Fault

namespace Marginalia.Reading

-- Reads from the front of the remaining characters.
abbrev Reader := StateT (List Char) (Except Fault)

def refuse {α : Type} : Reader α := fun _ => .error .malformedRecord

-- What stands between the parts of a record: blanks, and comments that run to the end of the
-- line or to a closing mark. The latter nest.
inductive Gap where
  | blank
  | line
  | block (depth : Nat)

def isGapBlank (c : Char) : Bool := c = ' ' || c = '\t' || c = '\n' || c = '\r'

def skipGap : Gap → List Char → Except Fault (List Char)
  | .blank, '/' :: '/' :: rest => skipGap .line rest
  | .blank, '/' :: '*' :: rest => skipGap (.block 0) rest
  | .blank, c :: rest =>
    if isGapBlank c then skipGap .blank rest
    else if c = '/' then .error .malformedRecord
    else .ok (c :: rest)
  | .blank, [] => .ok []
  | .line, c :: rest => if c = '\n' then skipGap .blank rest else skipGap .line rest
  | .line, [] => .ok []
  | .block depth, '/' :: '*' :: rest => skipGap (.block (depth + 1)) rest
  | .block 0, '*' :: '/' :: rest => skipGap .blank rest
  | .block (depth + 1), '*' :: '/' :: rest => skipGap (.block depth) rest
  | .block depth, _ :: rest => skipGap (.block depth) rest
  | .block _, [] => .error .malformedRecord

def gap : Reader Unit := fun cs => do return ((), ← skipGap .blank cs)

def rest? (word cs : List Char) : Option (List Char) :=
  if word.isPrefixOf cs then some (cs.drop word.length) else none

-- Takes a sign if it comes next, and says whether it did.
def take (word : String) : Reader Bool := fun cs =>
  match rest? word.toList cs with
  | some rest => .ok (true, rest)
  | none => .ok (false, cs)

def expect (word : String) : Reader Unit := do
  unless ← take word do refuse

def isNameStart (c : Char) : Bool := c.isAlpha || c = '_'

def isNamePart (c : Char) : Bool := isNameStart c || c.isDigit

-- What may stand in a name after the mark for unusual names.
def isRawNamePart (c : Char) : Bool := isNamePart c || c = '.' || c = '+' || c = '-'

-- Takes a word unless it is only the beginning of a longer name.
def takeWord (word : String) : Reader Bool := fun cs =>
  match rest? word.toList cs with
  | some (c :: rest) => if isNamePart c then .ok (false, cs) else .ok (true, c :: rest)
  | some [] => .ok (true, [])
  | none => .ok (false, cs)

-- A name. One that runs on into characters of unusual names is refused, as is the beginning of
-- a raw text. An unusual name follows the mark r#.
def name? : List Char → Option (String × List Char)
  | 'r' :: '#' :: rest =>
    let name := rest.takeWhile isRawNamePart
    if name.isEmpty then none else some (String.ofList name, rest.drop name.length)
  | ['r'] | 'r' :: '"' :: _ => none
  | c :: rest =>
    let name := (c :: rest).takeWhile isNamePart
    let longer := (c :: rest).takeWhile isRawNamePart
    if isNameStart c && longer.length ≤ name.length then
      some (String.ofList name, (c :: rest).drop name.length)
    else none
  | [] => none

def name : Reader String := fun cs =>
  match name? cs with
  | some found => .ok found
  | none => .error .malformedRecord

def hexValue? (c : Char) : Option Nat :=
  if c.isDigit then some (c.toNat - 48)
  else if 'a' ≤ c && c ≤ 'f' then some (c.toNat - 87)
  else if 'A' ≤ c && c ≤ 'F' then some (c.toNat - 55)
  else none

def isIntegerPart (c : Char) : Bool := (hexValue? c).isSome || c = '_'

def isFloatPart (c : Char) : Bool :=
  c.isDigit || c = 'e' || c = 'E' || c = '.' || c = '+' || c = '-' || c = '_'

-- The digits of a number in some base, with underscores anywhere but in front.
def digits? (base : Nat) (digits : List Char) : Option Nat :=
  match digits with
  | [] | '_' :: _ => none
  | _ => digits.foldlM (fun n c =>
    if c = '_' then some n
    else (hexValue? c).bind fun d => if d < base then some (base * n + d) else none) 0

-- A whole number below a limit, decimal or after 0x, 0o or 0b.
def natBelow (limit : Nat) : Reader Nat := fun cs =>
  let (base, body) := match cs with
    | '0' :: 'x' :: rest => (16, rest)
    | '0' :: 'o' :: rest => (8, rest)
    | '0' :: 'b' :: rest => (2, rest)
    | _ => (10, cs)
  let word := body.takeWhile isIntegerPart
  match digits? base word with
  | some n => if n < limit then .ok (n, body.drop word.length) else .error .malformedRecord
  | none => .error .malformedRecord

def natOf (digits : List Char) : Nat := digits.foldl (fun n c => 10 * n + (c.toNat - 48)) 0

-- A decimal number: a sign, digits with or without a point among or around them, an exponent.
structure Decimal where
  negative : Bool
  digits : Nat
  power : Int

def signed : List Char → Bool × List Char
  | '-' :: rest => (true, rest)
  | '+' :: rest => (false, rest)
  | cs => (false, cs)

def exponent? : List Char → Option Int
  | [] => some 0
  | c :: rest =>
    let (negative, digits) := signed rest
    if (c = 'e' || c = 'E') && !digits.isEmpty && digits.all Char.isDigit then
      some (if negative then -(natOf digits : Int) else natOf digits)
    else none

def decimal? (word : List Char) : Option Decimal := do
  let (negative, body) := signed word
  let whole := body.takeWhile Char.isDigit
  let rest := body.drop whole.length
  let (part, rest) := match rest with
    | '.' :: tail => (tail.takeWhile Char.isDigit, tail.dropWhile Char.isDigit)
    | _ => ([], rest)
  if whole.isEmpty && part.isEmpty then none
  let power ← exponent? rest
  return ⟨negative, natOf (whole ++ part), power - part.length⟩

def Decimal.binary (f : Format) (d : Decimal) : Binary f := .ofDecimal f d.negative d.digits d.power

-- A number of a binary format. Here underscores are refused.
def binary (f : Format) : Reader (Binary f) := do
  if ← takeWord "inf" then return .ofWord false f.top
  if ← takeWord "+inf" then return .ofWord false f.top
  if ← takeWord "-inf" then return .ofWord true f.top
  if ← takeWord "NaN" then return .nan
  if ← takeWord "+NaN" then return .nan
  if ← takeWord "-NaN" then return .nan
  fun cs =>
    let word := cs.takeWhile isFloatPart
    match decimal? word with
    | some d => .ok (d.binary f, cs.drop word.length)
    | none => .error .malformedRecord

-- The code point of up to six hexadecimal digits before a closing brace.
def codePoint : Nat → Nat → List Char → Option (Nat × List Char)
  | _, n, '\x7d' :: rest => some (n, rest)
  | room + 1, n, c :: rest => (hexValue? c).bind fun d => codePoint room (16 * n + d) rest
  | _, _, _ => none

def scalar? (n : Nat) : Option Char := if n.isValidChar then some (Char.ofNat n) else none

-- What follows a backslash.
def escape? : List Char → Option (Char × List Char)
  | '\x27' :: rest => some ('\x27', rest)
  | '"' :: rest => some ('"', rest)
  | '\\' :: rest => some ('\\', rest)
  | 'n' :: rest => some ('\n', rest)
  | 'r' :: rest => some ('\r', rest)
  | 't' :: rest => some ('\t', rest)
  | '0' :: rest => some ('\x00', rest)
  | 'x' :: high :: low :: rest => do
    return (Char.ofNat (16 * (← hexValue? high) + (← hexValue? low)), rest)
  | 'u' :: '\x7b' :: '\x7d' :: _ => none
  | 'u' :: '\x7b' :: rest => do
    let (n, rest) ← codePoint 6 0 rest
    return (← scalar? n, rest)
  | _ => none

-- The rest of a quoted text. Each round takes at least one character.
def quoted : Nat → List Char → List Char → Option (List Char × List Char)
  | _, done, '"' :: rest => some (done.reverse, rest)
  | rounds + 1, done, '\\' :: rest => do
    let (c, rest) ← escape? rest
    quoted rounds (c :: done) rest
  | rounds + 1, done, c :: rest => quoted rounds (c :: done) rest
  | _, _, _ => none

-- The rest of a raw text, which ends at a quote with as many number signs as it began with.
def rawQuoted (closing : List Char) : List Char → List Char → Option (List Char × List Char)
  | done, c :: rest =>
    if closing.isPrefixOf (c :: rest) then some (done.reverse, (c :: rest).drop closing.length)
    else rawQuoted closing (c :: done) rest
  | _, [] => none

def text? : List Char → Option (List Char × List Char)
  | '"' :: rest => quoted rest.length [] rest
  | 'r' :: rest =>
    let marks := rest.takeWhile (· = '#')
    match rest.drop marks.length with
    | '"' :: body => rawQuoted ('"' :: marks) [] body
    | _ => none
  | _ => none

def text : Reader String := fun cs =>
  match text? cs with
  | some (body, rest) => .ok (String.ofList body, rest)
  | none => .error .malformedRecord

-- One character between single quotes.
def character : Reader Unit := fun cs =>
  let closed : Option (List Char) := match cs with
    | '\x27' :: '\\' :: rest => (escape? rest).map (·.2)
    | '\x27' :: '\x27' :: _ => none
    | '\x27' :: _ :: rest => some rest
    | _ => none
  match closed with
  | some ('\x27' :: rest) => .ok ((), rest)
  | _ => .error .malformedRecord

end Marginalia.Reading
