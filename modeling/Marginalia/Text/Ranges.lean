namespace Marginalia.Text

-- Every `step`-th code point from `low` to `high`.
structure Range where
  low : Nat
  high : Nat
  step : Nat

-- A set of code points as ranges in ascending order.
structure Ranges where
  bounds : Array Range

namespace Ranges

def hexDigit (c : Char) : Nat :=
  if c.isDigit then c.toNat - 48 else if 'A' ≤ c && c ≤ 'F' then c.toNat - 55 else 0

def hex (digits : List Char) : Nat := digits.foldl (fun n c => 16 * n + hexDigit c) 0

-- "41" is one code point, "41-5A" all from the first to the last, "100-136/2" every second.
def range (word : List Char) : Range :=
  let ends := word.takeWhile (· != '/')
  let step := match word.dropWhile (· != '/') with
    | _ :: digits => hex digits
    | [] => 1
  let low := ends.takeWhile (· != '-')
  match ends.dropWhile (· != '-') with
  | _ :: high => ⟨hex low, hex high, step⟩
  | [] => ⟨hex low, hex low, 1⟩

def words : List Char → List Char → List (List Char)
  | [], [] => []
  | word, [] => [word.reverse]
  | [], ' ' :: rest => words [] rest
  | word, ' ' :: rest => word.reverse :: words [] rest
  | word, c :: rest => words (c :: word) rest

def ofLines (lines : List String) : Ranges :=
  ⟨(lines.flatMap fun line => (words [] line.toList).map range).toArray⟩

-- Halves the part of the table that can hold `n`; each round at least halves it, so as many
-- rounds as the table has entries are enough.
def search (bounds : Array Range) (n : Nat) : Nat → Nat → Nat → Bool
  | 0, _, _ => false
  | rounds + 1, first, last =>
    if first < last then
      let middle := (first + last) / 2
      match bounds[middle]? with
      | none => false
      | some r =>
        if n < r.low then search bounds n rounds first middle
        else if r.high < n then search bounds n rounds (middle + 1) last
        else (n - r.low) % r.step == 0
    else false

def holds (r : Ranges) (c : Char) : Bool := search r.bounds c.toNat r.bounds.size 0 r.bounds.size

end Ranges

end Marginalia.Text
