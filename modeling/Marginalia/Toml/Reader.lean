import Marginalia.Binary.Nearest
import Marginalia.Toml.Tree

namespace Marginalia.Toml.Grammar

-- Reads from the front of the remaining characters, or refuses.
abbrev Reader := StateT (List Char) Option

-- How many containers may lie in each other.
def nestingLimit : Nat := 79

def peek : Reader (Option Char) := do return (← get).head?

def take (word : String) : Reader Bool := fun cs =>
  if word.toList.isPrefixOf cs then some (true, cs.drop word.length) else some (false, cs)

def expect (word : String) : Reader Unit := do
  unless ← take word do failure

-- Takes the longest run of characters of a class.
def run (cls : Char → Bool) : Reader (List Char) := fun cs =>
  some (cs.takeWhile cls, cs.dropWhile cls)

-- Reads with the first reader, or with the second from the same place if the first refuses.
def either {α : Type} (first second : Reader α) : Reader α := fun cs =>
  match first cs with
  | some result => some result
  | none => second cs

def attempt (r : Reader Unit) : Reader Unit := either r (pure ())

-- Repeats a reader that says whether to go on.
def loop {α : Type} (step : α → Reader (α × Bool)) : Nat → α → Reader α
  | 0, _ => failure
  | rounds + 1, a => do
    let (a, more) ← step a
    if more then loop step rounds a else return a

def repeated {α : Type} (step : α → Reader (α × Bool)) (a : α) : Reader α := do
  loop step ((← get).length + 1) a

def isSpace (c : Char) : Bool := c = ' ' || c = '\t'

def isPlain (c : Char) : Bool := c = '\t' || (0x20 ≤ c.toNat && c.toNat ≠ 0x7F)

def isHex (c : Char) : Bool :=
  c.isDigit || ('a' ≤ c && c ≤ 'f') || ('A' ≤ c && c ≤ 'F')

def hexValue (c : Char) : Nat :=
  if c.isDigit then c.toNat - 48 else if 'a' ≤ c then c.toNat - 87 else c.toNat - 55

def spaces : Reader Unit := discard (run isSpace)

def newline : Reader Unit := do
  unless ← take "\n" do expect "\r\n"

def lineEnd : Reader Unit := do
  unless (← get).isEmpty do newline

def comment : Reader Unit := do
  if ← take "#" then discard (run isPlain)

-- Blanks, comments and line ends inside an array.
def filler : Reader Unit :=
  repeated (fun _ => do
    match ← peek with
    | some c =>
      if isSpace c then
        spaces
        return ((), true)
      else if c = '#' || c = '\n' || c = '\r' then
        comment
        newline
        return ((), true)
      else return ((), false)
    | none => return ((), false)) ()

-- Texts.

def codePoint (digits : Nat) : Reader Char := do
  let cs ← get
  let word := cs.take digits
  if word.length = digits && word.all isHex then
    let n := word.foldl (fun n c => 16 * n + hexValue c) 0
    if n.isValidChar then
      set (cs.drop digits)
      return Char.ofNat n
    else failure
  else failure

-- What follows a backslash.
def escape : Reader Char := do
  match ← get with
  | c :: rest =>
    set rest
    match c with
    | 'b' => return '\x08'
    | 't' => return '\t'
    | 'n' => return '\n'
    | 'f' => return '\x0c'
    | 'r' => return '\r'
    | '"' => return '"'
    | '\\' => return '\\'
    | 'u' => codePoint 4
    | 'U' => codePoint 8
    | _ => failure
  | [] => failure

def basicText : Reader String := do
  expect "\""
  let latest ← repeated (fun latest => do
    match ← get with
    | '"' :: rest =>
      set rest
      return (latest, false)
    | '\\' :: rest =>
      set rest
      return ((← escape) :: latest, true)
    | c :: rest =>
      if isPlain c then
        set rest
        return (c :: latest, true)
      else failure
    | [] => failure) []
  return String.ofList latest.reverse

def literalText : Reader String := do
  expect "\x27"
  let body ← run fun c => isPlain c && c != '\x27'
  expect "\x27"
  return String.ofList body

-- A backslash at the end of a line swallows all blanks and line ends up to the next sign.
def lineFold : Reader Unit := do
  spaces
  newline
  repeated (fun _ => do
    match ← peek with
    | some c =>
      if isSpace c then
        spaces
        return ((), true)
      else if c = '\n' || c = '\r' then
        newline
        return ((), true)
      else return ((), false)
    | none => return ((), false)) ()

-- A text over several lines between tripled quotes. Up to two quotes may stand before the
-- closing three, and every line end counts as a line feed.
def longText (quote : Char) (escapes : Bool) : Reader String := do
  expect (String.ofList [quote, quote, quote])
  attempt newline
  let latest ← repeated (fun latest => do
    let cs ← get
    let quotes := (cs.takeWhile (· = quote)).length
    if 3 ≤ quotes then
      let used := min quotes 5
      set (cs.drop used)
      return (List.replicate (used - 3) quote ++ latest, false)
    else match cs with
      | '\r' :: '\n' :: rest =>
        set rest
        return ('\n' :: latest, true)
      | c :: rest =>
        set rest
        if c = '\\' && escapes then
          either (do
            lineFold
            return (latest, true)) (do
            return ((← escape) :: latest, true))
        else if isPlain c || c = '\n' then return (c :: latest, true)
        else failure
      | [] => failure) []
  return String.ofList latest.reverse

def anyText : Reader String := fun cs =>
  match cs with
  | '"' :: '"' :: '"' :: _ => longText '"' true cs
  | '"' :: _ => basicText cs
  | '\x27' :: '\x27' :: '\x27' :: _ => longText '\x27' false cs
  | _ => literalText cs

-- Keys.

def isBare (c : Char) : Bool := c.isAlphanum || c = '_' || c = '-'

def simpleKey : Reader String := do
  match ← peek with
  | some '"' => basicText
  | some '\x27' => literalText
  | _ =>
    let word ← run isBare
    if word.isEmpty then failure else return String.ofList word

-- The parts of a dotted key, blanks around each.
def key : Reader (List String) := do
  let latest ← repeated (fun latest => do
    spaces
    let part ← simpleKey
    spaces
    return (part :: latest, ← take ".")) []
  if nestingLimit < latest.length then failure else return latest.reverse

-- Numbers and moments.

-- Digits of a class with single underscores between them.
def digits (cls : Char → Bool) : Reader (List Char) := do
  let word ← run fun c => cls c || c = '_'
  let rec sound : Bool → List Char → Bool
    | after, [] => !after
    | after, c :: rest => if c = '_' then !after && sound true rest else sound false rest
  if word.isEmpty || !sound true word then failure
  else return word.filter (· != '_')

def sign : Reader Bool := do
  if ← take "-" then return true
  let _ ← take "+"
  return false

-- A decimal whole number has no needless zero in front.
def wholeDigits : Reader (List Char) := do
  if ← take "0" then return ['0'] else digits Char.isDigit

def decimalValue (word : List Char) : Nat := word.foldl (fun n c => 10 * n + (c.toNat - 48)) 0

def integerOf (negative : Bool) (magnitude : Nat) : Reader Toml :=
  let value : Int := if negative then -(magnitude : Int) else magnitude
  if -9223372036854775808 ≤ value ∧ value ≤ 9223372036854775807 then return .integer value else failure

def based (mark : String) (base : Nat) : Reader Toml := do
  expect mark
  let word ← digits isHex
  if word.all fun c => hexValue c < base then
    integerOf false (word.foldl (fun n c => base * n + hexValue c) 0)
  else failure

def integer : Reader Toml := do
  match ← get with
  | '0' :: 'x' :: _ => based "0x" 16
  | '0' :: 'o' :: _ => based "0o" 8
  | '0' :: 'b' :: _ => based "0b" 2
  | _ =>
    let negative ← sign
    integerOf negative (decimalValue (← wholeDigits))

-- Whether a number is past the largest one of double precision, when rounded.
def tooLarge (word part : List Char) (exponent : Int) : Bool :=
  (Binary.ofDecimal .double false (decimalValue (word ++ part)) (exponent - part.length)).isInfinite

-- A number with a fraction or an exponent. Too large a positive one is refused.
def fractional : Reader Toml := do
  let negative ← sign
  let word ← wholeDigits
  let pointed ← take "."
  let part ← if pointed then digits Char.isDigit else pure []
  let scaled := (← peek) = some 'e' ∨ (← peek) = some 'E'
  let exponent : Int ← if scaled then do
      modify (·.drop 1)
      let below ← sign
      let word ← digits Char.isDigit
      pure (if below then -(decimalValue word : Int) else (decimalValue word : Int))
    else pure 0
  if (pointed || scaled) && (negative || !tooLarge word part exponent) then return .decimal
  else failure

def special : Reader Toml := do
  let _ ← sign
  unless ← take "inf" do expect "nan"
  return .decimal

def fixedDigits (count low high : Nat) : Reader Nat := do
  let cs ← get
  let word := cs.take count
  let n := decimalValue word
  if word.length = count && word.all Char.isDigit && low ≤ n && n ≤ high then
    set (cs.drop count)
    return n
  else failure

def daysIn (year month : Nat) : Nat :=
  if month = 2 then
    if year % 4 = 0 ∧ (year % 100 ≠ 0 ∨ year % 400 = 0) then 29 else 28
  else if month = 4 ∨ month = 6 ∨ month = 9 ∨ month = 11 then 30
  else 31

def date : Reader Unit := do
  let year ← fixedDigits 4 0 9999
  expect "-"
  let month ← fixedDigits 2 1 12
  expect "-"
  discard (fixedDigits 2 1 (daysIn year month))

def clock : Reader Unit := do
  discard (fixedDigits 2 0 23)
  expect ":"
  discard (fixedDigits 2 0 59)
  expect ":"
  discard (fixedDigits 2 0 60)
  if ← take "." then
    let word ← run Char.isDigit
    if word.isEmpty then failure

def zone : Reader Unit := do
  match ← peek with
  | some 'Z' | some 'z' => modify (·.drop 1)
  | some '+' | some '-' =>
    modify (·.drop 1)
    discard (fixedDigits 2 0 23)
    expect ":"
    discard (fixedDigits 2 0 59)
  | _ => failure

def moment : Reader Toml := do
  either (do
    date
    attempt do
      match ← peek with
      | some 'T' | some 't' | some ' ' => modify (·.drop 1)
      | _ => failure
      clock
      attempt zone) clock
  return .moment

-- Values.

def array (item : Reader Toml) : Reader Toml := do
  expect "["
  let latest ← repeated (fun latest => do
    filler
    if ← take "]" then return (latest, false)
    let value ← item
    filler
    if ← take "," then return (value :: latest, true)
    expect "]"
    return (value :: latest, false)) []
  return .array latest.reverse

-- One line of a table: a key, an equals sign and a value.
def pair (value : Reader Toml) : Reader (List String × String × Toml) := do
  let path ← key
  expect "="
  spaces
  let v ← value
  match path.getLast? with
  | some last => return (path.dropLast, last, v)
  | none => failure

-- A table between braces, on one line and without a comma at its end.
def inlineTable (value : Reader Toml) : Reader Toml := do
  expect "\x7b"
  spaces
  if ← take "\x7d" then return .inline []
  let entries ← repeated (fun entries => do
    let (path, last, v) ← pair value
    let entries ← (assign path last v entries : Option Entries)
    spaces
    if ← take "," then return (entries, true)
    expect "\x7d"
    return (entries, false)) []
  return .inline entries

def valueShape (inner : Option (Reader Toml)) : Reader Toml := do
  match ← peek with
  | some '"' | some '\x27' => return .text (← anyText)
  | some '[' => array (← inner)
  | some '\x7b' => inlineTable (← inner)
  | some 't' =>
    expect "true"
    return .truth true
  | some 'f' =>
    expect "false"
    return .truth false
  | some _ => either moment (either (either fractional special) integer)
  | none => failure

def value : Nat → Reader Toml
  | 0 => valueShape none
  | depth + 1 => valueShape (some (value depth))

-- The document, line by line.

def header (opening closing : String) : Reader (List String) := do
  expect opening
  let path ← key
  expect closing
  return path

def lineRest : Reader Unit := do
  spaces
  comment
  lineEnd

def line (d : Draft) : Reader Draft := do
  match ← get with
  | '#' :: _ =>
    comment
    lineEnd
    return d
  | '[' :: '[' :: _ =>
    let path ← header "[[" "]]"
    lineRest
    (d.openListed path : Option Draft)
  | '[' :: _ =>
    let path ← header "[" "]"
    lineRest
    (d.openTable path : Option Draft)
  | '\n' :: _ | '\r' :: _ =>
    newline
    return d
  | _ =>
    let (path, last, v) ← pair (value nestingLimit)
    lineRest
    (d.assign path last v : Option Draft)

def document : Reader Entries := do
  let _ ← take "\ufeff"
  spaces
  let d ← repeated (fun d => do
    if (← get).isEmpty then return (d, false)
    let d ← line d
    spaces
    return (d, true)) Draft.blank
  (d.close : Option Entries)

end Marginalia.Toml.Grammar

namespace Marginalia.Toml

-- The top-level entries of a document.
def read? (text : String) : Option Entries := (Grammar.document text.toList).map (·.1)

end Marginalia.Toml
