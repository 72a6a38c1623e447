import Marginalia.Binary

namespace Marginalia.Binary

-- The word nearest to n / d, a tie going to the even word. The quotient is taken in units
-- of 1 / 2 ^ scale, and a number with more bits than fit drops `excess` of them.
def nearestWord (f : Format) (n d : Nat) : Nat :=
  let scaled := n * twoTo f.scale
  let excess := (scaled / d).log2 - f.fraction
  let step := twoTo excess * d
  let word := excess * twoTo f.fraction + scaled / step
  let rest := scaled % step
  if step < 2 * rest then word + 1
  else if 2 * rest = step then word + word % 2
  else word

-- The number nearest to digits · 10 ^ power. Far outside the format's range the power is
-- not computed: such a number is infinite or zero.
def ofDecimal (f : Format) (negative : Bool) (digits : Nat) (power : Int) : Binary f :=
  let size : Int := (Nat.toDigits 10 digits).length + power
  if digits = 0 ∨ size < -(f.scale : Int) then ofWord negative 0
  else if (f.scale : Int) < size then ofWord negative f.top
  else if 0 ≤ power then ofWord negative (nearestWord f (digits * tenTo power.toNat) 1)
  else ofWord negative (nearestWord f digits (tenTo (-power).toNat))

end Marginalia.Binary
