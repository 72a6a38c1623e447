import Marginalia.Binary.Nearest
import Marginalia.Binary.Shortest

namespace Marginalia

theorem twoTo_pos (power : Nat) : 0 < twoTo power := Nat.two_pow_pos power

@[simp] theorem twoTo_zero : twoTo 0 = 1 := rfl

theorem twoTo_add (a b : Nat) : twoTo (a + b) = twoTo a * twoTo b := Nat.pow_add 2 a b

theorem twoTo_succ (power : Nat) : twoTo (power + 1) = 2 * twoTo power := Nat.pow_succ'

theorem tenTo_pos (power : Nat) : 0 < tenTo power := Nat.pow_pos (by decide)

@[simp] theorem tenTo_zero : tenTo 0 = 1 := rfl

theorem tenTo_add (a b : Nat) : tenTo (a + b) = tenTo a * tenTo b := Nat.pow_add 10 a b

namespace Format

-- There is a fraction, and there are exponents on both sides of that of one.
structure Regular (f : Format) : Prop where
  fraction : 0 < f.fraction
  exponent : 2 ≤ f.exponent

theorem double_regular : double.Regular := ⟨by decide, by decide⟩

theorem single_regular : single.Regular := ⟨by decide, by decide⟩

end Format

namespace Binary

variable {f : Format}

-- Words lie in runs of `2 ^ fraction` with the same step, twice as long in each run as in the
-- one before. The first step of a run is also the last one before it.
theorem units_run {run k : Nat} (low : run = 0 ∨ twoTo f.fraction ≤ k)
    (high : k ≤ 2 * twoTo f.fraction) : units f (run * twoTo f.fraction + k) = k * twoTo run := by
  have positive := twoTo_pos f.fraction
  unfold units
  rw [Nat.mul_comm run, Nat.mul_add_div positive, Nat.mul_add_mod]
  rcases Nat.lt_or_ge k (twoTo f.fraction) with inside | outside
  · obtain rfl : run = 0 := by omega
    simp [Nat.div_eq_of_lt inside, Nat.mod_eq_of_lt inside]
  · obtain ⟨rest, rfl⟩ := Nat.exists_eq_add_of_le outside
    rw [Nat.add_div_left _ positive, Nat.add_mod_left]
    rcases Nat.lt_or_ge rest (twoTo f.fraction) with inside | last
    · simp [Nat.div_eq_of_lt inside, Nat.mod_eq_of_lt inside, Nat.add_comm]
    · obtain rfl : rest = twoTo f.fraction := by omega
      simp [Nat.div_self positive, twoTo_succ, ← Nat.two_mul, Nat.mul_assoc, Nat.mul_left_comm]

-- Every word has its place in a run.
theorem word_run (f : Format) (word : Nat) : ∃ run k, word = run * twoTo f.fraction + k
    ∧ (run = 0 ∨ twoTo f.fraction ≤ k) ∧ k < 2 * twoTo f.fraction := by
  have positive := twoTo_pos f.fraction
  have split := Nat.div_add_mod word (twoTo f.fraction)
  have inside := Nat.mod_lt word positive
  cases exponent : word / twoTo f.fraction with
  | zero => exact ⟨0, word % twoTo f.fraction, by rw [exponent] at split; omega, .inl rfl, by omega⟩
  | succ run =>
    refine ⟨run, twoTo f.fraction + word % twoTo f.fraction, ?_, by omega, by omega⟩
    rw [exponent, Nat.mul_comm, Nat.succ_mul] at split
    omega

theorem units_step (f : Format) (word : Nat) : units f word < units f (word + 1) := by
  obtain ⟨run, k, rfl, low, high⟩ := word_run f word
  rw [Nat.add_assoc, units_run low (by omega), units_run (by omega) (by omega)]
  exact Nat.mul_lt_mul_of_pos_right (Nat.lt_succ_self k) (twoTo_pos run)

theorem units_lt {a b : Nat} (before : a < b) : units f a < units f b := by
  induction before with
  | refl => exact units_step f a
  | step _ ih => exact Nat.lt_trans ih (units_step f _)

theorem units_le {a b : Nat} (before : a ≤ b) : units f a ≤ units f b := by
  rcases Nat.eq_or_lt_of_le before with rfl | below
  · exact Nat.le_refl _
  · exact Nat.le_of_lt (units_lt below)

theorem units_zero (f : Format) : units f 0 = 0 := by simp [units]

-- A number n / d lies between two neighbours, and the nearest word is one of them: the upper
-- above the middle, the even one on it, and else the lower.
theorem nearestWord_between (f : Format) (n : Nat) {d : Nat} (positive : 0 < d) :
    ∃ below, units f below * d ≤ n * twoTo f.scale
      ∧ n * twoTo f.scale < units f (below + 1) * d
      ∧ nearestWord f n d =
        if (units f below + units f (below + 1)) * d < 2 * (n * twoTo f.scale) then below + 1
        else if 2 * (n * twoTo f.scale) = (units f below + units f (below + 1)) * d then
          below + below % 2
        else below := by
  unfold nearestWord
  generalize n * twoTo f.scale = scaled
  let excess := (scaled / d).log2 - f.fraction
  let step := twoTo excess * d
  have stepped : 0 < step := Nat.mul_pos (twoTo_pos _) positive
  have split : step * (scaled / step) + scaled % step = scaled := Nat.div_add_mod scaled step
  have remainder : scaled % step < step := Nat.mod_lt _ stepped
  have quotient : scaled / step = scaled / d / twoTo excess := by
    rw [Nat.div_div_eq_div_mul, Nat.mul_comm d]
  -- the dropped bits leave one bit more than the fraction has, or nothing is dropped
  have high : scaled / step < 2 * twoTo f.fraction := by
    rw [quotient, Nat.div_lt_iff_lt_mul (twoTo_pos _), ← twoTo_succ, ← twoTo_add]
    exact Nat.lt_of_lt_of_le Nat.lt_log2_self
      (Nat.pow_le_pow_right (by decide) (by simp only [excess]; omega))
  have low : excess = 0 ∨ twoTo f.fraction ≤ scaled / step := by
    rcases Nat.eq_zero_or_pos excess with whole | dropped
    · exact .inl whole
    · refine .inr ?_
      have large : scaled / d ≠ 0 := fun zero => by simp [excess, zero] at dropped
      rw [quotient, Nat.le_div_iff_mul_le (twoTo_pos _), ← twoTo_add]
      exact Nat.le_trans (Nat.pow_le_pow_right (by decide) (by simp only [excess] at dropped ⊢; omega))
        (Nat.log2_self_le large)
  obtain ⟨word, made⟩ : ∃ word, word = excess * twoTo f.fraction + scaled / step := ⟨_, rfl⟩
  have here : units f word * d = step * (scaled / step) := by
    rw [made, units_run low (by omega), Nat.mul_assoc, Nat.mul_comm]
  have above : units f (word + 1) * d = step * (scaled / step) + step := by
    rw [made, Nat.add_assoc, units_run (by omega) (by omega), Nat.mul_assoc, Nat.mul_comm, Nat.mul_succ]
  have up : step < 2 * (scaled % step) ↔ (units f word + units f (word + 1)) * d < 2 * scaled := by
    rw [Nat.add_mul, here, above]; omega
  have tie : 2 * (scaled % step) = step ↔ 2 * scaled = (units f word + units f (word + 1)) * d := by
    rw [Nat.add_mul, here, above]; omega
  refine ⟨word, by omega, by omega, ?_⟩
  simp only [← up, ← tie]
  rw [made]

-- A number n / d lies no farther from a word than half way to its neighbours, and half way only
-- from an even one.
def Rounds (f : Format) (word n d : Nat) : Prop :=
  let low := (units f (word - 1) + units f word) * d
  let high := (units f word + units f (word + 1)) * d
  let amount := 2 * (n * twoTo f.scale)
  if word % 2 = 0 then low ≤ amount ∧ amount ≤ high else low < amount ∧ amount < high

theorem nearestWord_exact {n d word : Nat} (positive : 0 < d) :
    nearestWord f n d = word ↔ Rounds f word n d := by
  obtain ⟨below, lower, upper, nearest⟩ := nearestWord_between f n positive
  have grows {a b : Nat} (before : a < b) : units f a * d < units f b * d :=
    Nat.mul_lt_mul_of_pos_right (units_lt before) positive
  have keeps {a b : Nat} (before : a ≤ b) : units f a * d ≤ units f b * d :=
    Nat.mul_le_mul_right d (units_le before)
  have next := grows (Nat.lt_add_one below)
  have past := grows (Nat.lt_add_one (below + 1))
  have back := keeps (Nat.sub_le below 1)
  have back_odd : below % 2 = 1 → units f (below - 1) * d < units f below * d :=
    fun odd => grows (by omega)
  unfold Rounds
  rw [nearest]
  simp only [Nat.add_mul]
  constructor
  · intro chosen
    split at chosen
    · subst chosen
      rw [Nat.add_sub_cancel]
      split <;> omega
    · split at chosen
      · rcases Nat.mod_two_eq_zero_or_one below with even | odd
        · obtain rfl : below = word := by omega
          rw [if_pos even]; omega
        · obtain rfl : below + 1 = word := by omega
          rw [Nat.add_sub_cancel]
          split <;> omega
      · subst chosen
        split <;> omega
  · intro held
    -- any other word lies a whole step away from the number
    have near : word = below ∨ word = below + 1 := by
      rcases Nat.lt_or_ge word below with before | after
      · have one := keeps (Nat.add_one_le_of_lt before)
        have two := grows before
        split at held <;> omega
      · rcases Nat.lt_or_ge (below + 1) word with far | close
        · have one := keeps (Nat.le_sub_one_of_lt far)
          have two := grows far
          split at held <;> omega
        · omega
    rcases near with rfl | rfl
    · split at held <;> split <;> try split
      all_goals omega
    · rw [Nat.add_sub_cancel] at held
      split at held <;> split <;> try split
      all_goals omega

-- Only the number counts, however it is written as a quotient.
theorem rounds_same {n d m e word : Nat} (positive : 0 < d) (other : 0 < e) (same : n * e = m * d) :
    Rounds f word n d ↔ Rounds f word m e := by
  have amounts : 2 * (n * twoTo f.scale) * e = 2 * (m * twoTo f.scale) * d := by
    simp only [Nat.mul_assoc, Nat.mul_comm (twoTo f.scale)]
    simp only [← Nat.mul_assoc n, ← Nat.mul_assoc m, same]
  have lower (bound : Nat) : bound * d ≤ 2 * (n * twoTo f.scale) ↔ bound * e ≤ 2 * (m * twoTo f.scale) := by
    rw [← Nat.mul_le_mul_right_iff other, amounts, Nat.mul_right_comm, Nat.mul_le_mul_right_iff positive]
  have upper (bound : Nat) : 2 * (n * twoTo f.scale) ≤ bound * d ↔ 2 * (m * twoTo f.scale) ≤ bound * e := by
    rw [← Nat.mul_le_mul_right_iff other, amounts, Nat.mul_right_comm bound,
      Nat.mul_le_mul_right_iff positive]
  simp only [Rounds, lower, upper, ← Nat.not_le]

theorem weigh_parts (f : Format) (digits : Nat) (power : Int) : weigh f digits power
    = (2 * (digits * tenTo power.toNat * twoTo f.scale), tenTo (-power).toNat) := by
  unfold weigh
  rw [twoTo_succ]
  split
  · next whole =>
    rw [Int.toNat_of_nonpos (show -power ≤ 0 by omega), Nat.mul_left_comm]
    rfl
  · next broken =>
    rw [Int.toNat_of_nonpos (show power ≤ 0 by omega), Nat.mul_left_comm, tenTo_zero, Nat.mul_one]

theorem basin_exact {word digits : Nat} {power : Int} : (basin f word).holds f digits power = true
    ↔ Rounds f word (digits * tenTo power.toNat) (tenTo (-power).toNat) := by
  have below := units_le (f := f) (Nat.sub_le word 1)
  have above := units_step f word
  unfold Basin.holds basin Rounds
  simp only [weigh_parts]
  rw [show 2 * units f word - (units f word - units f (word - 1)) = units f (word - 1) + units f word by omega,
    show 2 * units f word + (units f (word + 1) - units f word) = units f word + units f (word + 1) by omega]
  by_cases even : word % 2 = 0 <;> simp [even]

section Limits

variable (regular : f.Regular)
include regular

theorem bias_large : 2 ≤ twoTo (f.exponent - 1) := by
  have grows : twoTo 1 ≤ twoTo (f.exponent - 1) :=
    Nat.pow_le_pow_right (by decide) (by have := regular.exponent; omega)
  exact grows

-- No finite number is larger than two to the power of the bias.
theorem units_top : units f f.top = twoTo (twoTo (f.exponent - 1)) * twoTo f.scale := by
  have bias := bias_large regular
  have doubled : twoTo f.exponent = 2 * twoTo (f.exponent - 1) := by
    rw [← twoTo_succ, Nat.sub_add_cancel (Nat.le_of_lt regular.exponent)]
  have last : f.top = (twoTo f.exponent - 2) * twoTo f.fraction + twoTo f.fraction := by
    rw [← Nat.succ_mul]
    unfold Format.top
    congr 1
    omega
  rw [last, units_run (.inr (Nat.le_refl _)) (by omega), ← twoTo_add, ← twoTo_add]
  congr 1
  unfold Format.scale
  omega

theorem scale_large : twoTo (twoTo (f.exponent - 1)) < tenTo f.scale := by
  have bias := bias_large regular
  have fraction := regular.fraction
  calc twoTo (twoTo (f.exponent - 1))
    _ < 2 ^ (3 * f.scale) := Nat.pow_lt_pow_right (by decide) (by unfold Format.scale; omega)
    _ = 8 ^ f.scale := by rw [Nat.pow_mul]
    _ ≤ tenTo f.scale := Nat.pow_le_pow_left (by decide) _

end Limits

-- A number with so many digits lies between two powers of ten.
theorem digits_bounds {digits : Nat} (nonzero : 0 < digits) :
    tenTo ((Nat.toDigits 10 digits).length - 1) ≤ digits
      ∧ digits < tenTo (Nat.toDigits 10 digits).length := by
  have written : 0 < (Nat.toDigits 10 digits).length := Nat.length_toDigits_pos
  refine ⟨?_, (Nat.length_toDigits_le_iff (by decide) written).mp (Nat.le_refl _)⟩
  rcases Nat.eq_zero_or_pos ((Nat.toDigits 10 digits).length - 1) with single | more
  · rw [single]
    exact nonzero
  · refine Nat.le_of_not_lt fun small => ?_
    have shorter := (Nat.length_toDigits_le_iff (b := 10) (by decide) more).mpr small
    omega

theorem tenTo_lt {a b : Nat} : tenTo a < tenTo b ↔ a < b := Nat.pow_lt_pow_iff_right (by decide)

section Sizes

variable {word digits : Nat} {power : Int}

theorem basin_ends (held : (basin f word).holds f digits power = true) :
    (units f (word - 1) + units f word) * tenTo (-power).toNat
        ≤ 2 * (digits * tenTo power.toNat * twoTo f.scale)
      ∧ 2 * (digits * tenTo power.toNat * twoTo f.scale)
        ≤ (units f word + units f (word + 1)) * tenTo (-power).toNat := by
  have rounds := basin_exact.mp held
  unfold Rounds at rounds
  split at rounds <;> omega

theorem units_pos (nonzero : 0 < word) : 0 < units f word := by
  simpa [units_zero] using units_lt (f := f) nonzero

theorem basin_counted (nonzero : 0 < word) (held : (basin f word).holds f digits power = true) : 0 < digits := by
  refine Nat.pos_of_ne_zero fun zero => ?_
  have low := (basin_ends held).1
  rw [zero, Nat.zero_mul, Nat.zero_mul] at low
  have unit := units_pos (f := f) nonzero
  have more := Nat.mul_pos (show 0 < units f (word - 1) + units f word by omega) (tenTo_pos (-power).toNat)
  omega

-- The number of digits before the point, counted below zero behind it, stays within the scale
-- on both sides.
theorem basin_least (nonzero : 0 < word) (held : (basin f word).holds f digits power = true) :
    -(f.scale : Int) ≤ (Nat.toDigits 10 digits).length + power := by
  have unit := units_pos (f := f) nonzero
  have most := (digits_bounds (basin_counted nonzero held)).2
  have small : tenTo (-power).toNat
      < tenTo ((Nat.toDigits 10 digits).length + power.toNat + (f.scale + 1)) := by
    calc tenTo (-power).toNat
      _ ≤ (units f (word - 1) + units f word) * tenTo (-power).toNat :=
        Nat.le_mul_of_pos_left _ (by omega)
      _ ≤ digits * tenTo power.toNat * twoTo (f.scale + 1) := by
        rw [twoTo_succ, Nat.mul_left_comm]
        exact (basin_ends held).1
      _ < tenTo (Nat.toDigits 10 digits).length * tenTo power.toNat * twoTo (f.scale + 1) :=
        Nat.mul_lt_mul_of_pos_right (Nat.mul_lt_mul_of_pos_right most (tenTo_pos _)) (twoTo_pos _)
      _ ≤ tenTo (Nat.toDigits 10 digits).length * tenTo power.toNat * tenTo (f.scale + 1) :=
        Nat.mul_le_mul_left _ (Nat.pow_le_pow_left (by decide) _)
      _ = tenTo ((Nat.toDigits 10 digits).length + power.toNat + (f.scale + 1)) := by
        rw [tenTo_add _ (f.scale + 1), tenTo_add _ power.toNat]
  have := tenTo_lt.mp small
  omega

theorem basin_most (regular : f.Regular) (nonzero : 0 < word) (finite : word < f.top)
    (held : (basin f word).holds f digits power = true) :
    (Nat.toDigits 10 digits).length + power ≤ f.scale := by
  have above : units f word + units f (word + 1) ≤ 2 * units f f.top := by
    have one := units_le (f := f) (Nat.le_of_lt finite)
    have two := units_le (f := f) (Nat.add_one_le_of_lt finite)
    omega
  have bounded : digits * tenTo power.toNat * (2 * twoTo f.scale)
      ≤ twoTo (twoTo (f.exponent - 1)) * tenTo (-power).toNat * (2 * twoTo f.scale) := by
    calc digits * tenTo power.toNat * (2 * twoTo f.scale)
      _ ≤ (units f word + units f (word + 1)) * tenTo (-power).toNat := by
        rw [Nat.mul_left_comm]
        exact (basin_ends held).2
      _ ≤ 2 * units f f.top * tenTo (-power).toNat := Nat.mul_le_mul_right _ above
      _ = twoTo (twoTo (f.exponent - 1)) * tenTo (-power).toNat * (2 * twoTo f.scale) := by
        rw [units_top regular]
        ac_rfl
  have large : tenTo ((Nat.toDigits 10 digits).length - 1 + power.toNat)
      < tenTo (f.scale + (-power).toNat) := by
    calc tenTo ((Nat.toDigits 10 digits).length - 1 + power.toNat)
      _ ≤ digits * tenTo power.toNat := by
        rw [tenTo_add]
        exact Nat.mul_le_mul_right _ (digits_bounds (basin_counted nonzero held)).1
      _ ≤ twoTo (twoTo (f.exponent - 1)) * tenTo (-power).toNat :=
        Nat.le_of_mul_le_mul_right bounded (Nat.mul_pos (by decide) (twoTo_pos _))
      _ < tenTo f.scale * tenTo (-power).toNat :=
        Nat.mul_lt_mul_of_pos_right (scale_large regular) (tenTo_pos _)
      _ = tenTo (f.scale + (-power).toNat) := by rw [tenTo_add]
  have := tenTo_lt.mp large
  omega

end Sizes

-- What lies in the basin of a word reads back as the word. The powers that are not computed lie
-- outside every basin but those of zero and infinity.
theorem ofDecimal_basin {word digits : Nat} {power : Int} (negative : Bool) (regular : f.Regular)
    (nonzero : 0 < word) (finite : word < f.top) (held : (basin f word).holds f digits power = true) :
    ofDecimal f negative digits power = ofWord negative word := by
  have counted := basin_counted nonzero held
  have least := basin_least nonzero held
  have most := basin_most regular nonzero finite held
  have rounds := basin_exact.mp held
  unfold ofDecimal
  simp only
  rw [if_neg (by omega), if_neg (by omega)]
  split
  · next whole =>
    rw [Int.toNat_of_nonpos (show -power ≤ 0 by omega), tenTo_zero] at rounds
    rw [(nearestWord_exact Nat.one_pos).mpr rounds]
  · next broken =>
    rw [Int.toNat_of_nonpos (show power ≤ 0 by omega), tenTo_zero, Nat.mul_one] at rounds
    rw [(nearestWord_exact (tenTo_pos _)).mpr rounds]

end Binary

end Marginalia
