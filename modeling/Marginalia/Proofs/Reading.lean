import Marginalia.Record.Reader

namespace Marginalia.Reading

variable {α β : Type}

theorem bind_reads {p : Reader α} {next : α → Reader β} {cs mid : List Char} {a : α}
    (read : p cs = .ok (a, mid)) : (p >>= next) cs = next a mid := by
  show (p cs >>= fun found => next found.1 found.2) = next a mid
  rw [read]
  rfl

theorem get_reads (cs : List Char) : (get : Reader (List Char)) cs = .ok (cs, cs) := rfl

-- What may follow a value: nothing that could belong to a name or a number.
def Ends (rest : List Char) : Prop := ∀ c ∈ rest.head?, isRawNamePart c = false

theorem ends_nil : Ends [] := fun _ none => nomatch none

theorem ends_cons {c : Char} {tail : List Char} (outside : isRawNamePart c = false) : Ends (c :: tail) := by
  intro found same
  obtain rfl : c = found := by simpa using same
  exact outside

def isClosing (c : Char) : Bool := c = ')' || c = ']' || c = '\x7d'

-- What a written value begins with: a sign that no gap begins with and that closes no container.
def isOpening (c : Char) : Bool := !(isGapBlank c || c = '/' || isClosing c)

-- A class of signs that has none of the others in it.
theorem opening_of {part : Char → Bool} {c : Char} (held : part c = true)
    (others : [' ', '\t', '\n', '\r', '/', ')', ']', '\x7d'].any part = false) : isOpening c = true := by
  have other (d : Char) (listed : part d = false) : c ≠ d := by
    rintro rfl
    exact absurd held (by simp [listed])
  simp only [List.any_cons, Bool.or_eq_false_iff] at others
  simp [isOpening, isGapBlank, isClosing, other, others]

def Opens (written : List Char) : Prop := ∃ c tail, written = c :: tail ∧ isOpening c = true

theorem Opens.append {written : List Char} (opens : Opens written) (rest : List Char) :
    Opens (written ++ rest) := by
  obtain ⟨c, tail, rfl, opening⟩ := opens
  exact ⟨c, tail ++ rest, rfl, opening⟩

-- The reader takes exactly what was written and gives the value it was written for.
structure Reads (p : Reader α) (written : List Char) (a : α) : Prop where
  opens : Opens written
  exact : ∀ {rest}, Ends rest → p (written ++ rest) = .ok (a, rest)

-- What follows takes nothing more.
theorem Reads.andThen {p : Reader α} {next : α → Reader β} {written : List Char} {a : α} {b : β}
    (reads : Reads p written a) (gives : ∀ rest, next a rest = .ok (b, rest)) :
    Reads (p >>= next) written b where
  opens := reads.opens
  exact := fun ends => (bind_reads (reads.exact ends)).trans (gives _)

theorem Reads.map {p : Reader α} {written : List Char} {a : α} (reads : Reads p written a) (f : α → β) :
    Reads (f <$> p) written (f a) :=
  map_eq_pure_bind f p ▸ reads.andThen fun _ => rfl

section Gaps

-- Only the sign of a comment needs a look at what comes after it.
theorem skipGap_char {c : Char} (plain : c ≠ '/') (rest : List Char) : skipGap .blank (c :: rest)
    = if isGapBlank c then skipGap .blank rest else .ok (c :: rest) := by
  simp [skipGap, plain]

theorem skipGap_solid {c : Char} {rest : List Char} (solid : isGapBlank c = false) (plain : c ≠ '/') :
    skipGap .blank (c :: rest) = .ok (c :: rest) := by
  rw [skipGap_char plain, solid]
  rfl

theorem skipGap_blanks {blanks : List Char} (all : ∀ c ∈ blanks, isGapBlank c = true) (rest : List Char) :
    skipGap .blank (blanks ++ rest) = skipGap .blank rest := by
  induction blanks with
  | nil => rfl
  | cons c tail ih =>
    have blank := all c List.mem_cons_self
    have plain : c ≠ '/' := by
      rintro rfl
      exact absurd blank (by decide)
    rw [List.cons_append, skipGap_char plain, if_pos blank]
    exact ih fun d member => all d (List.mem_cons_of_mem c member)

theorem isOpening_parts {c : Char} (opening : isOpening c = true) :
    isGapBlank c = false ∧ c ≠ '/' ∧ isClosing c = false := by
  simpa [isOpening, and_assoc] using opening

theorem isClosing_parts {c : Char} (closing : isClosing c = true) :
    isGapBlank c = false ∧ c ≠ '/' ∧ c ≠ ',' ∧ isRawNamePart c = false := by
  simp only [isClosing, Bool.or_eq_true, decide_eq_true_eq] at closing
  rcases closing with (rfl | rfl) | rfl <;> decide

theorem isGapBlank_ends {c : Char} (blank : isGapBlank c = true) : isRawNamePart c = false := by
  simp only [isGapBlank, Bool.or_eq_true, decide_eq_true_eq] at blank
  rcases blank with ((rfl | rfl) | rfl) | rfl <;> decide

theorem skipGap_opens {written : List Char} (opens : Opens written) : skipGap .blank written = .ok written := by
  obtain ⟨c, tail, rfl, opening⟩ := opens
  exact skipGap_solid (isOpening_parts opening).1 (isOpening_parts opening).2.1

theorem gap_reads {cs rest : List Char} (skipped : skipGap .blank cs = .ok rest) : gap cs = .ok ((), rest) := by
  unfold gap
  rw [skipped]
  rfl

end Gaps

section Words

theorem rest?_append (word rest : List Char) : rest? word (word ++ rest) = some rest := by
  simp [rest?, List.isPrefixOf_iff_prefix]

theorem take_reads (word : String) (rest : List Char) :
    take word (word.toList ++ rest) = .ok (true, rest) := by
  simp [take, rest?_append]

theorem expect_reads (word : String) (rest : List Char) :
    expect word (word.toList ++ rest) = .ok ((), rest) := by
  unfold expect
  rw [bind_reads (take_reads word rest)]
  rfl

theorem takeWord_reads (word : String) {rest : List Char} (ends : Ends rest) :
    takeWord word (word.toList ++ rest) = .ok (true, rest) := by
  unfold takeWord
  rw [rest?_append]
  cases rest with
  | nil => rfl
  | cons c tail =>
    have outside : isNamePart c = false := by
      have raw := ends c rfl
      simp only [isRawNamePart, Bool.or_eq_false_iff] at raw
      exact raw.1.1.1
    simp [outside]

theorem takeWord_other {word : String} {cs : List Char} (other : word.toList.isPrefixOf cs = false) :
    takeWord word cs = .ok (false, cs) := by
  simp [takeWord, rest?, other]

-- What ends a value also ends whatever consists of parts of names.
theorem takeWhile_ends {part : Char → Bool} (parts : ∀ c, part c = true → isRawNamePart c = true)
    {front rest : List Char} (all : ∀ c ∈ front, part c = true) (ends : Ends rest) :
    (front ++ rest).takeWhile part = front := by
  rw [List.takeWhile_append_of_pos all]
  cases rest with
  | nil => simp
  | cons c tail =>
    have outside : part c = false := by
      cases held : part c with
      | false => rfl
      | true => exact absurd (parts c held) (by simp [ends c rfl])
    simp [outside]

-- A name that nothing but its end sets off: none of its parts is unusual, and no mark for unusual
-- names or for a raw text can be meant.
def isWord (word : List Char) : Bool :=
  word.head?.any (fun c => isNameStart c && c ≠ 'r') && word.all isNamePart

theorem word_parts {word : List Char} (plain : isWord word = true) :
    ∃ c tail, word = c :: tail ∧ isNameStart c = true ∧ c ≠ 'r' ∧ ∀ d ∈ word, isNamePart d = true := by
  cases word with
  | nil => cases plain
  | cons c tail =>
    simp only [isWord, List.head?_cons, Option.any_some, Bool.and_eq_true, decide_eq_true_eq] at plain
    exact ⟨c, tail, rfl, plain.1.1, plain.1.2, List.all_eq_true.mp plain.2⟩

theorem word_opens {word : List Char} (plain : isWord word = true) : Opens word := by
  obtain ⟨c, tail, rfl, start, -⟩ := word_parts plain
  exact ⟨c, tail, rfl, opening_of start rfl⟩

theorem name_reads {word : String} (plain : isWord word.toList = true) : Reads name word.toList word where
  opens := word_opens plain
  exact := by
    intro rest ends
    obtain ⟨c, tail, shape, start, other, parts⟩ := word_parts plain
    have raw (d : Char) (part : isNamePart d = true) : isRawNamePart d = true := by simp [isRawNamePart, part]
    have taken := takeWhile_ends raw parts ends
    have longer := takeWhile_ends (fun _ => id) (fun d member => raw d (parts d member)) ends
    have left : (word.toList ++ rest).drop word.toList.length = rest := List.drop_left
    have found : name? (word.toList ++ rest) = some (word, rest) := by
      rw [shape, List.cons_append] at taken longer left ⊢
      unfold name?
      split
      · next same => exact absurd (List.cons.inj same).1 other
      · next same => exact absurd (List.cons.inj same).1 other
      · next same => exact absurd (List.cons.inj same).1 other
      · next same =>
        obtain ⟨rfl, rfl⟩ := List.cons.inj same
        simp only [taken, longer, left, start, Nat.le_refl, decide_true, Bool.and_true, if_true]
        rw [← shape, String.ofList_toList]
      · next same => cases same
    unfold name
    rw [found]

end Words

section Parts

-- A gap, a colon, a gap and the value.
theorem colon_reads {p : Reader α} {next : α → Reader β} {written rest : List Char} {a : α}
    (reads : Reads p written a) (ends : Ends rest) :
    (colon >>= fun _ => p >>= next) (':' :: ' ' :: (written ++ rest)) = next a rest := by
  have passed : colon (':' :: ' ' :: (written ++ rest)) = .ok ((), written ++ rest) := by
    unfold colon
    rw [bind_reads (show gap (':' :: _) = .ok ((), ':' :: ' ' :: (written ++ rest)) from rfl),
      bind_reads (show expect ":" (':' :: _) = .ok ((), ' ' :: (written ++ rest)) from rfl)]
    exact gap_reads (skipGap_opens (reads.opens.append rest))
  rw [bind_reads passed, bind_reads (reads.exact ends)]

theorem once_reads {p : Reader α} {written rest : List Char} {a : α} (reads : Reads p written a)
    (ends : Ends rest) : once none p (':' :: ' ' :: (written ++ rest)) = .ok (some a, rest) :=
  colon_reads reads ends

-- An argument in parentheses, with nothing behind it.
theorem argument_reads {p : Reader α} {next : α → Reader β} {written rest : List Char} {a : α}
    (reads : Reads p written a) :
    (do gap; expect "("; gap; let a ← p; let _ ← comma; expect ")"; next a)
      ('(' :: (written ++ ')' :: rest)) = next a rest := by
  rw [bind_reads (show gap ('(' :: _) = .ok ((), '(' :: (written ++ ')' :: rest)) from rfl),
    bind_reads (show expect "(" ('(' :: _) = .ok ((), written ++ ')' :: rest) from rfl),
    bind_reads (gap_reads (skipGap_opens (reads.opens.append _))),
    bind_reads (reads.exact (ends_cons rfl))]
  rfl

end Parts

end Marginalia.Reading
