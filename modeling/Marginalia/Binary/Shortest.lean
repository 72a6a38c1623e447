import Marginalia.Binary

namespace Marginalia.Binary

-- The numbers that read back as the word, in half units: from `low` to `high`, with the
-- ends themselves if the word is even.
structure Basin where
  low : Nat
  high : Nat
  closed : Bool

def basin (f : Format) (word : Nat) : Basin :=
  let here := 2 * units f word
  let above := units f (word + 1) - units f word
  let below := units f word - units f (word - 1)
  ⟨here - below, here + above, word % 2 == 0⟩

-- A number digits · 10 ^ power as a pair of products to compare with half units: the number
-- itself and the unit it has to be measured by.
def weigh (f : Format) (digits : Nat) (power : Int) : Nat × Nat :=
  if 0 ≤ power then (digits * tenTo power.toNat * twoTo (f.scale + 1), 1)
  else (digits * twoTo (f.scale + 1), tenTo (-power).toNat)

def Basin.holds (b : Basin) (f : Format) (digits : Nat) (power : Int) : Bool :=
  let (amount, unit) := weigh f digits power
  if b.closed then b.low * unit ≤ amount && amount ≤ b.high * unit
  else b.low * unit < amount && amount < b.high * unit

-- The largest multiple of 10 ^ power that is not above the word's number, by its factor.
def gridBelow (f : Format) (word : Nat) (power : Int) : Nat :=
  if 0 ≤ power then units f word / (twoTo f.scale * tenTo power.toNat)
  else units f word * tenTo (-power).toNat / twoTo f.scale

-- Of the two neighbours on the grid of 10 ^ power the one that reads back. If both do, the
-- nearer, and on a tie the upper.
def onGrid (f : Format) (word : Nat) (power : Int) : Option Nat :=
  let b := basin f word
  let below := gridBelow f word power
  match b.holds f below power, b.holds f (below + 1) power with
  | true, true =>
    let (double, unit) := weigh f (2 * below + 1) power
    if 4 * units f word * unit < double then some below else some (below + 1)
  | true, false => some below
  | false, true => some (below + 1)
  | false, false => none

-- The coarsest grid with a hit gives the fewest digits. Each grid is ten times finer than
-- the one before; at 10 ^ -scale the number itself lies on the grid.
def descend (f : Format) (word : Nat) : Nat → Int → Nat × Int
  | 0, power => (gridBelow f word power, power)
  | fuel + 1, power => match onGrid f word power with
    | some digits => (digits, power)
    | none => descend f word fuel (power - 1)

-- The fewest decimal digits that read back as the word, and the power of ten they count.
def shortest (f : Format) (word : Nat) : Nat × Int :=
  let size := (Nat.toDigits 10 (units f word / twoTo f.scale)).length
  descend f word (size + f.scale) size

-- Positional notation at any size, with no point in a whole number.
def positional (digits : Nat) (power : Int) : String :=
  if 0 ≤ power then toString (digits * tenTo power.toNat)
  else
    let places := (-power).toNat
    let whole := digits / tenTo places
    let part := Nat.toDigits 10 (digits % tenTo places)
    toString whole ++ "." ++ String.ofList (List.replicate (places - part.length) '0' ++ part)

def sign (negative : Bool) : String := if negative then "-" else ""

-- The shortest text that reads back.
def render {f : Format} : Binary f → String
  | .nan => "NaN"
  | .number negative word =>
    if word.val = f.top then sign negative ++ "inf"
    else if word.val = 0 then sign negative ++ "0"
    else
      let (digits, power) := shortest f word
      sign negative ++ positional digits power

-- Whether a finite number has no fractional part.
def isWhole {f : Format} : Binary f → Bool
  | .nan => false
  | .number _ word => word.val < f.top && units f word % twoTo f.scale == 0

-- The exact value rounded to a number of places, a tie going to the even digit.
def fixed {f : Format} (places : Nat) : Binary f → String
  | .nan => "NaN"
  | .number negative word =>
    if word.val = f.top then sign negative ++ "inf"
    else
      let scaled := units f word * tenTo places
      let below := scaled / twoTo f.scale
      let rest := scaled % twoTo f.scale
      let digits :=
        if twoTo f.scale < 2 * rest then below + 1
        else if 2 * rest = twoTo f.scale then below + below % 2
        else below
      sign negative ++ (if places = 0 then toString digits else positional digits (-(places : Int)))

end Marginalia.Binary
