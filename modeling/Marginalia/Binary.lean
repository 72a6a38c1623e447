namespace Marginalia

def twoTo (power : Nat) : Nat := Nat.pow 2 power

def tenTo (power : Nat) : Nat := Nat.pow 10 power

-- A binary number format, by the widths of its stored fraction and exponent.
structure Format where
  fraction : Nat
  exponent : Nat
deriving DecidableEq

namespace Format

def double : Format := ⟨52, 11⟩

def single : Format := ⟨23, 8⟩

-- The magnitude word of infinity. Every smaller word is a finite number.
def top (f : Format) : Nat := (twoTo f.exponent - 1) * twoTo f.fraction

-- Finite numbers are whole multiples of 1 / 2 ^ scale.
def scale (f : Format) : Nat := twoTo (f.exponent - 1) - 2 + f.fraction

-- The sign bit's value in the stored word.
def signBit (f : Format) : Nat := twoTo (f.fraction + f.exponent)

end Format

-- A number of the format: a sign and a magnitude word, or the one value that is no number.
-- Magnitudes grow with their words, so words are compared where magnitudes are meant.
inductive Binary (f : Format) where
  | nan
  | number (negative : Bool) (word : Fin (f.top + 1))
deriving DecidableEq

namespace Binary

variable {f : Format}

instance : Inhabited (Binary f) := ⟨.nan⟩

-- Words above the top are clamped to infinity.
def ofWord (negative : Bool) (word : Nat) : Binary f :=
  .number negative ⟨min word f.top, by omega⟩

-- The stored word: the sign bit above the magnitude. Magnitudes above the top are no numbers.
def ofBits (bits : Nat) : Binary f :=
  let magnitude := bits % f.signBit
  if magnitude ≤ f.top then ofWord (f.signBit ≤ bits) magnitude else .nan

def bits? : Binary f → Option Nat
  | .nan => none
  | .number negative word => some (if negative then f.signBit + word else word)

def isNaN : Binary f → Bool
  | .nan => true
  | .number .. => false

def isInfinite : Binary f → Bool
  | .nan => false
  | .number _ word => word.val == f.top

-- Numerical equality: the two zeros are equal and nothing equals what is no number.
def same : Binary f → Binary f → Bool
  | .number s a, .number t b => (s == t && a == b) || (a.val == 0 && b.val == 0)
  | _, _ => false

-- Places numbers in order, the negative zero just below the positive one.
def rank? : Binary f → Option Int
  | .nan => none
  | .number negative word => some (if negative then -(word.val : Int) - 1 else word.val)

-- A finite magnitude in units of 1 / 2 ^ scale.
def units (f : Format) (word : Nat) : Nat :=
  let exponent := word / twoTo f.fraction
  let fraction := word % twoTo f.fraction
  if exponent = 0 then fraction else (fraction + twoTo f.fraction) * twoTo (exponent - 1)

-- One: the exponent field holds the bias.
def one (f : Format) : Binary f := ofWord false ((twoTo (f.exponent - 1) - 1) * twoTo f.fraction)

theorem same_nan_left (x : Binary f) : same .nan x = false := rfl

theorem same_nan_right (x : Binary f) : same x .nan = false := by cases x <;> rfl

theorem same_self (x : Binary f) : same x x = !x.isNaN := by
  cases x with
  | nan => rfl
  | number negative word => simp [same, isNaN]

end Binary

end Marginalia
