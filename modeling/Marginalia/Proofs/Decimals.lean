import Marginalia.Proofs.Reading
import Marginalia.Proofs.Rounding
import Marginalia.Record.Writer

namespace Marginalia

namespace Binary

variable {f : Format} {word : Nat}

theorem basin_same {digits other : Nat} {power shift : Int}
    (same : digits * tenTo power.toNat * tenTo (-shift).toNat = other * tenTo shift.toNat * tenTo (-power).toNat) :
    (basin f word).holds f digits power = (basin f word).holds f other shift := by
  rw [Bool.eq_iff_iff, basin_exact, basin_exact]
  exact rounds_same (tenTo_pos _) (tenTo_pos _) same

-- Every word's own number lies in its basin.
theorem basin_self {digits : Nat} {power : Int} (nonzero : 0 < word)
    (exact : digits * tenTo power.toNat * twoTo f.scale = units f word * tenTo (-power).toNat) :
    (basin f word).holds f digits power = true := by
  have below := Nat.mul_lt_mul_of_pos_right (units_lt (f := f) (Nat.sub_lt nonzero Nat.one_pos))
    (tenTo_pos (-power).toNat)
  have above := Nat.mul_lt_mul_of_pos_right (units_step f word) (tenTo_pos (-power).toNat)
  rw [basin_exact]
  unfold Rounds
  rw [exact, Nat.add_mul, Nat.add_mul]
  split <;> omega

theorem onGrid_holds {power : Int} {digits : Nat} (found : onGrid f word power = some digits) :
    (basin f word).holds f digits power = true := by
  unfold onGrid at found
  simp only at found
  split at found
  · next low high =>
    split at found <;> cases found
    · exact low
    · exact high
  · next low _ => cases found; exact low
  · next _ high => cases found; exact high
  · cases found

-- On the last grid the word's own number is left.
theorem gridBelow_last (regular : f.Regular) :
    gridBelow f word (-(f.scale : Int)) * twoTo f.scale = units f word * tenTo f.scale := by
  have tens : tenTo f.scale = Nat.pow 5 f.scale * twoTo f.scale := Nat.mul_pow 5 2 f.scale
  have scale : 0 < f.scale := by
    have := regular.fraction
    unfold Format.scale
    omega
  unfold gridBelow
  rw [if_neg (by omega), Int.neg_neg, Int.toNat_natCast, tens, ← Nat.mul_assoc,
    Nat.mul_div_cancel _ (twoTo_pos _)]

theorem descend_holds (regular : f.Regular) (nonzero : 0 < word) {fuel : Nat} {power : Int}
    (left : power = fuel - f.scale) :
    (basin f word).holds f (descend f word fuel power).1 (descend f word fuel power).2 = true := by
  induction fuel generalizing power with
  | zero =>
    obtain rfl : power = -(f.scale : Int) := by omega
    refine basin_self nonzero ?_
    simpa [descend, Int.toNat_of_nonpos (show -(f.scale : Int) ≤ 0 by omega)] using gridBelow_last regular
  | succ fuel ih =>
    unfold descend
    split
    · next digits found => exact onGrid_holds found
    · exact ih (by omega)

theorem shortest_holds (regular : f.Regular) (nonzero : 0 < word) :
    (basin f word).holds f (shortest f word).1 (shortest f word).2 = true :=
  descend_holds regular nonzero (by omega)

-- A whole number lies on the grid of its units, so no finer one is looked at.
theorem onGrid_whole (nonzero : 0 < word) (whole : units f word % twoTo f.scale = 0) :
    (onGrid f word 0).isSome = true := by
  have held : (basin f word).holds f (gridBelow f word 0) 0 = true := by
    refine basin_self nonzero ?_
    have exact := Nat.div_mul_cancel (Nat.dvd_of_mod_eq_zero whole)
    simpa [gridBelow] using exact
  unfold onGrid
  simp only [held]
  cases (basin f word).holds f (gridBelow f word 0 + 1) 0
  · rfl
  · simp only
    split <;> rfl

theorem descend_whole (nonzero : 0 < word) (whole : units f word % twoTo f.scale = 0) {fuel : Nat} {power : Int}
    (inside : 0 ≤ power) (left : power < fuel) : 0 ≤ (descend f word fuel power).2 := by
  induction fuel generalizing power with
  | zero => omega
  | succ fuel ih =>
    unfold descend
    split
    · exact inside
    · next missed =>
      have positive : power ≠ 0 := by
        rintro rfl
        have hit := onGrid_whole nonzero whole
        simp [missed] at hit
      exact ih (by omega) (by omega)

theorem shortest_whole (regular : f.Regular) (nonzero : 0 < word)
    (whole : units f word % twoTo f.scale = 0) : 0 ≤ (shortest f word).2 := by
  refine descend_whole nonzero whole (by omega) ?_
  have := regular.fraction
  unfold Format.scale
  omega

end Binary

namespace Reading

section Digits

theorem digit_value {c : Char} (digit : c.isDigit = true) :
    hexValue? c = some (c.toNat - 48) ∧ c.toNat - 48 < 10 := by
  refine ⟨by simp [hexValue?, digit], ?_⟩
  simp only [Char.isDigit, Bool.and_eq_true, decide_eq_true_eq] at digit
  have high : c.val.toNat ≤ 57 := UInt32.le_iff_toNat_le.mp digit.2
  have same : c.toNat = c.val.toNat := rfl
  omega

theorem natOf_ofDigitChars (digits : List Char) : natOf digits = Nat.ofDigitChars 10 digits 0 := by
  rw [Nat.ofDigitChars_eq_foldl]
  rfl

theorem natOf_toDigits (n : Nat) : natOf (Nat.toDigits 10 n) = n := by
  rw [natOf_ofDigitChars, Nat.ofDigitChars_ten_toDigits]

theorem natOf_append (front back : List Char) :
    natOf (front ++ back) = tenTo back.length * natOf front + natOf back := by
  simp only [natOf_ofDigitChars, Nat.ofDigitChars_append]
  exact Nat.ofDigitChars_eq_ofDigitChars_zero

theorem natOf_padded (zeros : Nat) (digits : List Char) :
    natOf (List.replicate zeros '0' ++ digits) = natOf digits := by
  rw [natOf_append, natOf_ofDigitChars (List.replicate _ _), Nat.ofDigitChars_replicate_zero]
  simp

theorem toDigits_digits (n : Nat) : ∀ c ∈ Nat.toDigits 10 n, c.isDigit = true :=
  fun _ member => Nat.isDigit_of_mem_toDigits (by decide) (by decide) member

-- Zeros in front bring the digits of a small enough number to any length.
theorem padded_digits {n places : Nat} (below : n < tenTo places) (behind : 0 < places) {part : List Char}
    (padded : List.replicate (places - (Nat.toDigits 10 n).length) '0' ++ Nat.toDigits 10 n = part) :
    part.length = places ∧ natOf part = n ∧ ∀ c ∈ part, c.isDigit = true := by
  have short : (Nat.toDigits 10 n).length ≤ places :=
    (Nat.length_toDigits_le_iff (by decide) behind).mpr below
  subst padded
  refine ⟨?_, by rw [natOf_padded, natOf_toDigits], ?_⟩
  · rw [List.length_append, List.length_replicate]
    omega
  · intro c member
    rcases List.mem_append.mp member with zero | digit
    · rw [List.eq_of_mem_replicate zero]
      rfl
    · exact toDigits_digits n c digit

theorem digits_span {front rest : List Char} (all : ∀ c ∈ front, c.isDigit = true)
    (outside : ∀ c ∈ rest.head?, c.isDigit = false) :
    (front ++ rest).takeWhile Char.isDigit = front ∧ (front ++ rest).dropWhile Char.isDigit = rest := by
  rw [List.takeWhile_append_of_pos all, List.dropWhile_append_of_pos all]
  cases rest with
  | nil => simp
  | cons c tail => simp [outside c rfl]

-- Digits without underscores are read as the number they stand for.
theorem digits?_digits {digits : List Char} (filled : digits ≠ []) (all : ∀ c ∈ digits, c.isDigit = true) :
    digits? 10 digits = some (natOf digits) := by
  have folded (n : Nat) : digits.foldlM (fun n c =>
      if c = '_' then some n
      else (hexValue? c).bind fun d => if d < 10 then some (10 * n + d) else none) n
        = some (digits.foldl (fun n c => 10 * n + (c.toNat - 48)) n) := by
    clear filled
    induction digits generalizing n with
    | nil => rfl
    | cons c tail ih =>
      have digit := all c List.mem_cons_self
      obtain ⟨value, small⟩ := digit_value digit
      have plain : c ≠ '_' := by
        rintro rfl
        exact absurd digit (by decide)
      rw [List.foldlM_cons, if_neg plain, value, Option.bind_some, if_pos small]
      exact ih (fun d member => all d (List.mem_cons_of_mem c member)) _
  unfold digits?
  split
  · exact absurd rfl filled
  · exact absurd (all '_' List.mem_cons_self) (by decide)
  · exact folded 0

end Digits

section Parts

theorem hexValue?_raw {c : Char} (value : (hexValue? c).isSome = true) : isRawNamePart c = true := by
  unfold hexValue? at value
  split at value
  · next digit => simp [isRawNamePart, isNamePart, digit]
  · have letter : c.isAlpha = true := by
      simp only [Bool.and_eq_true, decide_eq_true_eq] at value
      split at value
      · next lower =>
        have small : c.isLower = true :=
          Bool.and_eq_true_iff.mpr ⟨decide_eq_true lower.1, decide_eq_true (UInt32.le_trans lower.2 (by decide))⟩
        exact Bool.or_eq_true_iff.mpr (.inr small)
      · split at value
        · next upper =>
          have capital : c.isUpper = true := decide_eq_true ⟨upper.1, UInt32.le_trans upper.2 (by decide)⟩
          exact Bool.or_eq_true_iff.mpr (.inl capital)
        · cases value
    simp [isRawNamePart, isNamePart, isNameStart, letter]

theorem isIntegerPart_raw (c : Char) (part : isIntegerPart c = true) : isRawNamePart c = true := by
  simp only [isIntegerPart, Bool.or_eq_true, decide_eq_true_eq] at part
  rcases part with hex | rfl
  · exact hexValue?_raw hex
  · rfl

theorem isFloatPart_raw (c : Char) (part : isFloatPart c = true) : isRawNamePart c = true := by
  simp only [isFloatPart, Bool.or_eq_true, decide_eq_true_eq] at part
  rcases part with (((((digit | rfl) | rfl) | rfl) | rfl) | rfl) | rfl
  · simp [isRawNamePart, isNamePart, digit]
  all_goals rfl

theorem isDigit_integer {c : Char} (digit : c.isDigit = true) : isIntegerPart c = true := by
  simp [isIntegerPart, (digit_value digit).1]

theorem isDigit_opening {c : Char} (digit : c.isDigit = true) : isOpening c = true :=
  opening_of digit rfl

end Parts

-- What is all digits has no mark of another base in front.
theorem digits_unmarked {digits rest : List Char} {mark : Char} (all : ∀ c ∈ digits, c.isDigit = true)
    (filled : digits ≠ []) (ends : Ends rest) (raw : isRawNamePart mark = true) (other : mark.isDigit = false)
    (tail : List Char) : digits ++ rest ≠ '0' :: mark :: tail := by
  intro same
  match digits, filled with
  | [_], _ =>
    obtain ⟨-, rfl⟩ := List.cons.inj same
    exact absurd (ends mark rfl) (by simp [raw])
  | _ :: second :: _, _ =>
    obtain ⟨-, behind⟩ := List.cons.inj same
    obtain ⟨rfl, -⟩ := List.cons.inj behind
    exact absurd (all second (by simp)) (by simp [other])

theorem natBelow_reads {limit n : Nat} (below : n < limit) : Reads (natBelow limit) (Record.writeNat n) n := by
  have written : Record.writeNat n = Nat.toDigits 10 n := Nat.toList_repr
  have all := toDigits_digits n
  have filled := Nat.toDigits_ne_nil (n := n) (b := 10)
  rw [written]
  constructor
  · obtain ⟨c, tail, shape⟩ := List.exists_cons_of_ne_nil filled
    exact ⟨c, tail, shape, isDigit_opening (all c (shape ▸ List.mem_cons_self))⟩
  · intro rest ends
    have word := takeWhile_ends isIntegerPart_raw (fun c member => isDigit_integer (all c member)) ends
    unfold natBelow
    split
    next base body found =>
    split at found
    · next same => exact absurd same (digits_unmarked all filled ends rfl rfl _)
    · next same => exact absurd same (digits_unmarked all filled ends rfl rfl _)
    · next same => exact absurd same (digits_unmarked all filled ends rfl rfl _)
    · cases found
      simp [word, digits?_digits filled all, natOf_toDigits, below]

-- Digits, perhaps with a point among them, and the number they stand for: a factor and the power
-- of ten it counts.
inductive Numeral : List Char → Nat → Int → Prop
  | whole {digits : List Char} (filled : digits ≠ []) (all : ∀ c ∈ digits, c.isDigit = true) :
    Numeral digits (natOf digits) 0
  | pointed {digits part : List Char} (filled : digits ≠ []) (all : ∀ c ∈ digits, c.isDigit = true)
    (behind : ∀ c ∈ part, c.isDigit = true) :
    Numeral (digits ++ '.' :: part) (natOf (digits ++ part)) (-(part.length : Int))

namespace Numeral

variable {text : List Char} {digits : Nat} {power : Int}

theorem first (numeral : Numeral text digits power) : ∃ c tail, text = c :: tail ∧ c.isDigit = true := by
  cases numeral with
  | whole filled all =>
    obtain ⟨c, tail, rfl⟩ := List.exists_cons_of_ne_nil filled
    exact ⟨c, tail, rfl, all c List.mem_cons_self⟩
  | pointed filled all _ =>
    obtain ⟨c, tail, rfl⟩ := List.exists_cons_of_ne_nil filled
    exact ⟨c, _, rfl, all c List.mem_cons_self⟩

theorem parts (numeral : Numeral text digits power) : ∀ c ∈ text, isFloatPart c = true := by
  have float {c : Char} (digit : c.isDigit = true) : isFloatPart c = true := by simp [isFloatPart, digit]
  intro c member
  cases numeral with
  | whole _ all => exact float (all c member)
  | pointed _ all behind =>
    rcases List.mem_append.mp member with before | after
    · exact float (all c before)
    · rcases List.mem_cons.mp after with rfl | later
      · rfl
      · exact float (behind c later)

theorem decimal?_reads (numeral : Numeral text digits power) (negative : Bool) :
    decimal? ((Binary.sign negative).toList ++ text) = some ⟨negative, digits, power⟩ := by
  have signs : signed ((Binary.sign negative).toList ++ text) = (negative, text) := by
    cases negative with
    | true => rfl
    | false =>
      obtain ⟨c, tail, rfl, digit⟩ := numeral.first
      show signed (c :: tail) = _
      unfold signed
      split
      · next same => cases same; cases digit
      · next same => cases same; cases digit
      · rfl
  unfold decimal?
  rw [signs]
  cases numeral with
  | whole filled all =>
    have taken := (digits_span all (show ∀ c ∈ [].head?, Char.isDigit c = false from nofun)).1
    rw [List.append_nil] at taken
    simp [taken, filled, exponent?]
  | @pointed front part filled all behind =>
    have taken := (digits_span all (show ∀ c ∈ ('.' :: part).head?, c.isDigit = false by rintro c ⟨⟩; rfl)).1
    have left := digits_span behind (show ∀ c ∈ [].head?, Char.isDigit c = false from nofun)
    rw [List.append_nil] at left
    simp [taken, left, filled, exponent?]

theorem reads (numeral : Numeral text digits power) (f : Format) (negative : Bool) :
    Reads (binary f) ((Binary.sign negative).toList ++ text) (.ofDecimal f negative digits power) := by
  obtain ⟨c, tail, shape, digit⟩ := numeral.first
  constructor
  · cases negative with
    | true => exact ⟨'-', text, rfl, rfl⟩
    | false => exact ⟨c, tail, shape, isDigit_opening digit⟩
  · intro rest ends
    have all : ∀ d ∈ (Binary.sign negative).toList ++ text, isFloatPart d = true := by
      intro d member
      rcases List.mem_append.mp member with sign | inside
      · cases negative with
        | true => obtain rfl := List.mem_singleton.mp sign; rfl
        | false => cases sign
      · exact numeral.parts d inside
    have word := takeWhile_ends isFloatPart_raw all ends
    -- neither a digit nor a sign before one begins a word for a number
    have other (word : String) (named : word ∈ ["inf", "+inf", "-inf", "NaN", "+NaN", "-NaN"]) :
        takeWord word ((Binary.sign negative).toList ++ text ++ rest)
          = .ok (false, (Binary.sign negative).toList ++ text ++ rest) := by
      have letter (d : Char) (letter : d.isDigit = false) : d ≠ c := by
        rintro rfl
        exact absurd digit (by simp [letter])
      refine takeWord_other ?_
      simp only [List.mem_cons, List.not_mem_nil, or_false] at named
      rcases named with rfl | rfl | rfl | rfl | rfl | rfl <;> cases negative <;>
        simp [shape, Binary.sign, List.isPrefixOf, letter]
    unfold binary
    rw [bind_reads (other "inf" (by simp)), if_neg Bool.false_ne_true,
      bind_reads (other "+inf" (by simp)), if_neg Bool.false_ne_true,
      bind_reads (other "-inf" (by simp)), if_neg Bool.false_ne_true,
      bind_reads (other "NaN" (by simp)), if_neg Bool.false_ne_true,
      bind_reads (other "+NaN" (by simp)), if_neg Bool.false_ne_true,
      bind_reads (other "-NaN" (by simp)), if_neg Bool.false_ne_true]
    simp only [word, numeral.decimal?_reads negative, List.drop_left]
    rfl

end Numeral

-- Positional notation is a numeral of the same number, and so it is with a point and a zero
-- behind it where it has no point.
theorem positional_numeral {f : Format} {word digits : Nat} {power : Int} {whole : Bool}
    (inside : whole = true → 0 ≤ power) (held : (Binary.basin f word).holds f digits power = true) :
    ∃ found shift, Numeral ((Binary.positional digits power).toList ++ (if whole then ['.', '0'] else []))
        found shift ∧ (Binary.basin f word).holds f found shift = true := by
  unfold Binary.positional
  split
  · next inside =>
    have written : (toString (digits * tenTo power.toNat)).toList = Nat.toDigits 10 (digits * tenTo power.toNat) :=
      Nat.toList_repr
    have natural : (-power).toNat = 0 := Int.toNat_of_nonpos (by omega)
    rw [written]
    cases whole with
    | false =>
      rw [if_neg Bool.false_ne_true, List.append_nil]
      refine ⟨_, _, .whole Nat.toDigits_ne_nil (toDigits_digits _), ?_⟩
      rw [natOf_toDigits, ← held]
      exact Binary.basin_same (by simp [natural])
    | true =>
      rw [if_pos rfl]
      refine ⟨_, _, .pointed Nat.toDigits_ne_nil (toDigits_digits _) (List.forall_mem_singleton.mpr rfl), ?_⟩
      rw [natOf_append, natOf_toDigits, ← held]
      refine Binary.basin_same ?_
      simp only [natural, tenTo_zero, List.length_singleton, Int.neg_neg, Int.natCast_one,
        show natOf ['0'] = 0 from rfl, show (-1 : Int).toNat = 0 from rfl, show (1 : Int).toNat = 1 from rfl]
      simp [Nat.mul_comm]
  · next broken =>
    obtain rfl : whole = false := by
      cases whole with
      | false => rfl
      | true => exact absurd (inside rfl) broken
    obtain ⟨places, rfl⟩ : ∃ places : Nat, power = -(places : Int) := ⟨(-power).toNat, by omega⟩
    simp only [Int.neg_neg, Int.toNat_natCast]
    generalize padded : List.replicate (places - (Nat.toDigits 10 (digits % tenTo places)).length) '0'
      ++ Nat.toDigits 10 (digits % tenTo places) = part
    obtain ⟨length, value, all⟩ := padded_digits (Nat.mod_lt _ (tenTo_pos places)) (by omega) padded
    have written : (toString (digits / tenTo places) ++ "." ++ String.ofList part).toList
        = Nat.toDigits 10 (digits / tenTo places) ++ '.' :: part := by
      simp [Nat.toString_eq_repr, Nat.toList_repr]
    rw [written, if_neg Bool.false_ne_true, List.append_nil]
    refine ⟨_, _, .pointed Nat.toDigits_ne_nil (toDigits_digits _) all, ?_⟩
    rw [natOf_append, natOf_toDigits, length, value, Nat.div_add_mod]
    exact held

-- The words for what has no digits.
theorem infinity_reads (f : Format) (negative : Bool) :
    Reads (binary f) ((Binary.sign negative).toList ++ "inf".toList) (.ofWord negative f.top) := by
  cases negative with
  | false =>
    refine ⟨⟨'i', _, rfl, rfl⟩, ?_⟩
    intro rest ends
    unfold binary
    exact bind_reads (takeWord_reads "inf" ends)
  | true =>
    refine ⟨⟨'-', _, rfl, rfl⟩, ?_⟩
    intro rest ends
    unfold binary
    rw [bind_reads (takeWord_other rfl), if_neg Bool.false_ne_true,
      bind_reads (takeWord_other rfl), if_neg Bool.false_ne_true]
    exact bind_reads (takeWord_reads "-inf" ends)

theorem nan_reads (f : Format) : Reads (binary f) "NaN".toList .nan := by
  refine ⟨⟨'N', _, rfl, rfl⟩, ?_⟩
  intro rest ends
  unfold binary
  rw [bind_reads (takeWord_other rfl), if_neg Bool.false_ne_true,
    bind_reads (takeWord_other rfl), if_neg Bool.false_ne_true,
    bind_reads (takeWord_other rfl), if_neg Bool.false_ne_true]
  exact bind_reads (takeWord_reads "NaN" ends)

-- Every number of a format reads back from its written form, and so does what is no number.
theorem binary_reads {f : Format} (regular : f.Regular) (x : Binary f) :
    Reads (binary f) (Record.writeBinary x) x := by
  cases x with
  | nan =>
    have written : Record.writeBinary (.nan : Binary f) = "NaN".toList := by
      simp [Record.writeBinary, Binary.render, Binary.isWhole]
    exact written ▸ nan_reads f
  | number negative word =>
    have same : Binary.ofWord negative word.val = .number negative word := by
      simp [Binary.ofWord, Nat.min_eq_left (Nat.le_of_lt_succ word.isLt)]
    unfold Record.writeBinary Binary.render Binary.isWhole
    simp only
    split
    · next infinite =>
      simpa [infinite, ← same] using infinity_reads f negative
    · next finite =>
      have below : word.val < f.top := by omega
      split
      · next zero =>
        have all : ∀ c ∈ ['0'], c.isDigit = true := List.forall_mem_singleton.mpr rfl
        have numeral : Numeral ['0', '.', '0'] 0 (-1) := @Numeral.pointed ['0'] ['0'] (List.cons_ne_nil _ _) all all
        have reads := numeral.reads f negative
        have value : Binary.ofDecimal f negative 0 (-1) = .number negative word := by
          rw [← same, zero]
          simp [Binary.ofDecimal]
        have top : 0 < f.top := by omega
        rw [value] at reads
        simpa [zero, top, Binary.units_zero] using reads
      · next nonzero =>
        have positive : 0 < word.val := Nat.pos_of_ne_zero nonzero
        have inside : (decide (word.val < f.top) && Binary.units f word.val % twoTo f.scale == 0) = true
            → 0 ≤ (Binary.shortest f word.val).2 := by
          intro whole
          simp only [Bool.and_eq_true, beq_iff_eq] at whole
          exact Binary.shortest_whole regular positive whole.2
        obtain ⟨found, shift, numeral, held⟩ :=
          positional_numeral inside (Binary.shortest_holds regular positive)
        have reads := numeral.reads f negative
        rw [Binary.ofDecimal_basin negative regular positive below held, same] at reads
        simpa using reads

end Reading

end Marginalia
