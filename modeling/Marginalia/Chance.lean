namespace Marginalia

-- A source of words of 32 and of 64 bits with states in `σ`.
structure Generator (σ : Type) where
  word : σ → UInt32 × σ
  longWord : σ → UInt64 × σ

namespace Generator

variable {σ α : Type}

-- Short words suffice for a number below a count that is one itself.
def short (count : Nat) : Bool := count < 4294967296

def width (count : Nat) : Nat := if short count then 32 else 64

-- How many words there are to draw a number below `count` from.
def words (count : Nat) : Nat := 1 <<< width count

def draw (g : Generator σ) (count : Nat) (s : σ) : Nat × σ :=
  if short count then
    let (word, s) := g.word s
    (word.toNat, s)
  else
    let (word, s) := g.longWord s
    (word.toNat, s)

-- The high half of word · count is uniform over words whose low half lies before the last whole
-- multiple.
def takes (count word : Nat) : Bool :=
  word * count % words count < count <<< (width count - 1 - count.log2)

-- A number below `count`, from the first word that is taken. Absent if the generator never comes
-- to one.
def below (g : Generator σ) (count : Nat) (s : σ) : Option (Nat × σ) :=
  let (word, s) := g.draw count s
  if takes count word then some (word * count / words count, s) else g |>.below count s
partial_fixpoint

def choose (g : Generator σ) (items : List α) (s : σ) : Option (Option α × σ) :=
  if items.isEmpty then some (none, s)
  else (g.below items.length s).map fun (index, s) => (items[index]?, s)

-- From position `last` down to the second, each item changes places with one not behind it.
def shuffleFrom (g : Generator σ) : Nat → Array α → σ → Option (Array α × σ)
  | 0, items, s => some (items, s)
  | last + 1, items, s => do
    let (index, s) ← g.below (last + 2) s
    if bound : last + 1 < items.size ∧ index < items.size then
      g.shuffleFrom last (items.swap (last + 1) index bound.1 bound.2) s
    else none

def shuffle (g : Generator σ) (items : List α) (s : σ) : Option (List α × σ) :=
  (g.shuffleFrom (items.length - 1) items.toArray s).map fun (items, s) => (items.toList, s)

-- A linear congruential generator on 64 bits, of which the high half is the word. A long word is
-- two of them, the low half first.
def congruential : Generator UInt64 :=
  let word (s : UInt64) : UInt32 × UInt64 :=
    let next := s * 6364136223846793005 + 1442695040888963407
    ((next >>> 32).toUInt32, next)
  { word
    longWord s :=
      let (low, s) := word s
      let (high, s) := word s
      (high.toUInt64 <<< 32 ||| low.toUInt64, s) }

end Generator

end Marginalia
