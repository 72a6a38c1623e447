import Marginalia.Proofs.Reading
import Marginalia.Record.Writer

namespace Marginalia.Reading

theorem hexValue?_digit {digit : Nat} (small : digit < 16) : hexValue? digit.digitChar = some digit :=
  (by decide : ∀ digit < 16, hexValue? digit.digitChar = some digit) digit small

theorem codePoint_digit {digit : Nat} (small : digit < 16) (room n : Nat) (rest : List Char) :
    codePoint (room + 1) n (digit.digitChar :: rest) = codePoint room (16 * n + digit) rest := by
  have inside : digit.digitChar ≠ '\x7d' := by
    intro same
    have value := hexValue?_digit small
    rw [same] at value
    exact absurd value nofun
  rw [codePoint, hexValue?_digit small, Option.bind_some]
  exact fun same => inside same

-- The digits of a code take as much room as there are of them.
theorem codePoint_digits (n room : Nat) (rest : List Char) :
    codePoint (room + (Nat.toDigits 16 n).length) 0 (Nat.toDigits 16 n ++ rest) = codePoint room n rest := by
  induction n using Nat.strongRecOn generalizing room rest with
  | ind n ih =>
    rcases Nat.lt_or_ge n 16 with single | more
    · rw [Nat.toDigits_of_lt_base single]
      simpa using codePoint_digit single room 0 rest
    · rw [Nat.toDigits_of_base_le (by decide) more]
      simp only [List.length_append, List.length_singleton, List.append_assoc, List.singleton_append]
      rw [show room + ((Nat.toDigits 16 (n / 16)).length + 1)
          = room + 1 + (Nat.toDigits 16 (n / 16)).length by omega,
        ih (n / 16) (by omega), codePoint_digit (Nat.mod_lt n (by decide)), Nat.div_add_mod]

theorem toDigits_short (c : Char) : (Nat.toDigits 16 c.toNat).length ≤ 6 := by
  rw [Nat.length_toDigits_le_iff (by decide) (by decide)]
  have valid : c.toNat.isValidChar := c.valid
  unfold Nat.isValidChar at valid
  omega

theorem codeEscape_reads (c : Char) (rest : List Char) :
    escape? ('u' :: '\x7b' :: (Nat.toDigits 16 c.toNat ++ '\x7d' :: rest)) = some (c, rest) := by
  have read : codePoint 6 0 (Nat.toDigits 16 c.toNat ++ '\x7d' :: rest) = some (c.toNat, rest) := by
    obtain ⟨room, enough⟩ := Nat.exists_eq_add_of_le' (toDigits_short c)
    rw [enough, codePoint_digits]
    cases room <;> rfl
  have scalar : scalar? c.toNat = some c := by
    rw [scalar?, if_pos (show c.toNat.isValidChar from c.valid), Char.ofNat_toNat]
  obtain ⟨first, digits, shape⟩ := List.exists_cons_of_ne_nil (Nat.toDigits_ne_nil (n := c.toNat) (b := 16))
  rw [shape, List.cons_append] at read ⊢
  -- a brace in front would end the code before its digits
  have inside : first ≠ '\x7d' := by
    rintro rfl
    have early : codePoint 6 0 ('\x7d' :: (digits ++ '\x7d' :: rest)) = some (0, digits ++ '\x7d' :: rest) := rfl
    have lengths := congrArg (fun found => found.map (·.2.length)) (early.symm.trans read)
    simp at lengths
    omega
  simp [escape?, inside, read, scalar]

-- An escaped character reads back, whichever way it was written.
theorem escape_reads (single : Bool) (c : Char) :
    (Text.escape single c = [c] ∧ c ≠ '"' ∧ c ≠ '\\')
      ∨ ∃ code, Text.escape single c = '\\' :: code ∧ ∀ rest, escape? (code ++ rest) = some (c, rest) := by
  have coded : ∃ code, Text.codeEscape c = '\\' :: code ∧ ∀ rest, escape? (code ++ rest) = some (c, rest) :=
    ⟨_, rfl, fun rest => by simpa using codeEscape_reads c rest⟩
  unfold Text.escape
  split
  · next zero => exact .inr ⟨_, rfl, fun rest => by rw [zero]; rfl⟩
  split
  · next tab => exact .inr ⟨_, rfl, fun rest => by rw [tab]; rfl⟩
  split
  · next back => exact .inr ⟨_, rfl, fun rest => by rw [back]; rfl⟩
  split
  · next feed => exact .inr ⟨_, rfl, fun rest => by rw [feed]; rfl⟩
  split
  · next marked =>
    refine .inr ⟨_, rfl, fun rest => ?_⟩
    simp only [Bool.or_eq_true, Bool.and_eq_true, decide_eq_true_eq] at marked
    rcases marked with (rfl | rfl) | ⟨_, rfl⟩ <;> rfl
  · next unmarked =>
    split
    · exact .inr coded
    · split
      · refine .inl ⟨rfl, ?_, ?_⟩ <;> rintro rfl <;> exact unmarked rfl
      · exact .inr coded

-- The closing quote is the first one that no escape has taken.
theorem quoted_reads (single : Bool) (text done rest : List Char) {rounds : Nat}
    (enough : text.length ≤ rounds) :
    quoted rounds done (text.flatMap (Text.escape single) ++ '"' :: rest) = some (done.reverse ++ text, rest) := by
  induction text generalizing done rounds with
  | nil => cases rounds <;> simp [quoted]
  | cons c tail ih =>
    obtain ⟨left, rfl⟩ := Nat.exists_eq_add_of_le' (Nat.lt_of_lt_of_le (Nat.zero_lt_succ _) enough)
    have next := @ih (c :: done) left (by simpa using enough)
    rw [List.flatMap_cons, List.append_assoc]
    rcases escape_reads single c with ⟨plain, quote, slash⟩ | ⟨code, escaped, read⟩
    · rw [plain, List.singleton_append, quoted, next]
      · simp
      · exact fun same => quote same
      · exact fun same => slash same
    · rw [escaped, List.cons_append]
      simp [quoted, read, next]

theorem escape_grows (single : Bool) (text : List Char) :
    text.length ≤ (text.flatMap (Text.escape single)).length := by
  induction text with
  | nil => exact Nat.le_refl 0
  | cons c tail ih =>
    have written : 0 < (Text.escape single c).length := by
      rcases escape_reads single c with ⟨plain, _⟩ | ⟨code, escaped, _⟩
      · simp [plain]
      · simp [escaped]
    rw [List.flatMap_cons, List.length_append, List.length_cons]
    omega

-- Every text reads back from between its quotes, whatever characters it holds.
theorem text?_quote (single : Bool) (text rest : List Char) :
    text? (Text.quote single text ++ rest) = some (text, rest) := by
  have enough : text.length ≤ (text.flatMap (Text.escape single) ++ '"' :: rest).length := by
    have grown := escape_grows single text
    rw [List.length_append]
    omega
  have read := quoted_reads single text [] rest enough
  simpa [Text.quote, text?] using read

theorem text_reads (body : String) : Reads text (Record.writeText body) body where
  opens := ⟨'"', _, rfl, rfl⟩
  exact := by
    intro rest _
    unfold text Record.writeText
    simp [text?_quote]

end Marginalia.Reading
