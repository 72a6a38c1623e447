import Marginalia.Proofs.Rounding
import Mathlib.Data.Nat.Dist

namespace Marginalia.Binary

-- The whole number nearest to n / d, and of two that are as near the even one.
structure Nearest (n d whole : Nat) : Prop where
  near : ∀ k, Nat.dist n (whole * d) ≤ Nat.dist n (k * d)
  even : ∀ k, k ≠ whole → Nat.dist n (whole * d) = Nat.dist n (k * d) → whole % 2 = 0

-- A number to two places: its hundredths, a whole number, with a point in front of the last two digits.
inductive Figure {f : Format} : Binary f → String → Prop where
  | nan : Figure .nan "NaN"
  | infinite {negative : Bool} {word : Fin (f.top + 1)} (top : word.val = f.top) :
      Figure (.number negative word) ((if negative then "-" else "") ++ "inf")
  | finite {negative : Bool} {word : Fin (f.top + 1)} {hundredths : Nat} (below : word.val < f.top)
      (nearest : Nearest (units f word * 100) (twoTo f.scale) hundredths) :
      Figure (.number negative word) ((if negative then "-" else "") ++ (toString (hundredths / 100) ++ "."
        ++ String.ofList [Nat.digitChar (hundredths / 10 % 10), Nat.digitChar (hundredths % 10)]))

theorem padded {n : Nat} (small : n < 100) :
    List.replicate (2 - (Nat.toDigits 10 n).length) '0' ++ Nat.toDigits 10 n
      = [Nat.digitChar (n / 10), Nat.digitChar (n % 10)] := by
  rcases Nat.lt_or_ge n 10 with single | double
  · rw [Nat.toDigits_of_lt_base single, Nat.div_eq_of_lt single, Nat.mod_eq_of_lt single]
    rfl
  · rw [Nat.toDigits_of_base_le (by decide) double, Nat.toDigits_of_lt_base (by omega)]
    rfl

end Marginalia.Binary
