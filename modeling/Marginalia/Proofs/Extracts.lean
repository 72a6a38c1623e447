import Marginalia.Proofs.Slots
import Marginalia.Proofs.TreeCopies

namespace Marginalia

namespace Text

-- Where a text can be parted is where its encoding can.
theorem boundary_valid {offset : Nat} {text : String} :
    Boundary offset text.toList ↔ (String.Pos.Raw.mk offset).IsValid text := by
  rw [String.Pos.Raw.isValid_iff_exists_append]
  constructor
  · rintro ⟨before, after, parts, size⟩
    refine ⟨String.ofList before, String.ofList after, ?_, String.Pos.Raw.ext ?_⟩
    · rw [← String.ofList_append, ← parts, String.ofList_toList]
    · rw [← size, ← bytes_string]
      rfl
  · rintro ⟨before, after, rfl, place⟩
    refine ⟨before.toList, after.toList, String.toList_append, ?_⟩
    have size := congrArg String.Pos.Raw.byteIdx place
    exact (Token.width_utf8 before).trans size.symm

-- A slice by characters is the slice of the encoding.
theorem slice_extract {start stop : Nat} {text piece : String} (ordered : start ≤ stop)
    (found : slice start stop text.toList = some piece.toList) :
    piece.toByteArray = text.toByteArray.extract start stop := by
  obtain ⟨before, after, parts, opens, size⟩ := slice_exact.mp found
  have whole : text = String.ofList before ++ (piece ++ String.ofList after) := by
    rw [← String.ofList_toList (s := piece), ← String.ofList_append, ← String.ofList_append, ← parts,
      String.ofList_toList]
  have front : (String.ofList before).toByteArray.size = start := (bytes_string before).trans opens
  have length : piece.toByteArray.size = stop - start := (Token.width_utf8 piece).symm.trans size
  have reach : start + piece.toByteArray.size = stop := by omega
  calc piece.toByteArray
      = (piece.toByteArray ++ (String.ofList after).toByteArray).extract 0 piece.toByteArray.size :=
        (ByteArray.extract_append_eq_left rfl).symm
    _ = text.toByteArray.extract (start + 0) (start + piece.toByteArray.size) := by
        rw [whole, String.toByteArray_append, String.toByteArray_append,
          ByteArray.extract_append_size_add' front.symm]
    _ = text.toByteArray.extract start stop := by rw [reach, Nat.add_zero]

end Text

namespace Document

-- A range that ends in the text, counted from where the document begins.
def Inside (d : Document) (s : Span) : Prop :=
  d.start ≤ s.start ∧ s.stop - d.start ≤ d.text.utf8ByteSize

-- Both its ends stand between characters of the text.
def Uncut (d : Document) (s : Span) : Prop :=
  (String.Pos.Raw.mk (s.start - d.start)).IsValid d.text ∧ (String.Pos.Raw.mk (s.stop - d.start)).IsValid d.text

variable {d : Document} {s : Span}

theorem text_size (d : Document) : d.text.utf8ByteSize = Text.bytes d.chars := Text.bytes_string d.chars

theorem inside_exact : d.Inside s ↔ d.start ≤ s.start ∧ s.stop ≤ d.start + Text.bytes d.chars := by
  have ordered := s.ordered
  rw [Inside, text_size]
  omega

theorem uncut_exact : d.Uncut s ↔ ∃ chars, Text.slice (s.start - d.start) (s.stop - d.start) d.chars = some chars := by
  have ordered := s.ordered
  rw [Text.slice_some (by omega), Uncut, ← Text.boundary_valid, ← Text.boundary_valid, text, String.toList_ofList]

theorem textAt_found {text : String} : d.textAt s = .ok text ↔
    d.Inside s ∧ Text.slice (s.start - d.start) (s.stop - d.start) d.chars = some text.toList := by
  rw [textAt_exact, inside_exact, and_assoc]

theorem textAt_splits {start stop : Nat} : d.textAt s = .error (.splitsCharacter start stop) ↔
    d.Inside s ∧ Text.slice (s.start - d.start) (s.stop - d.start) d.chars = none
      ∧ start = s.start ∧ stop = s.stop := by
  rw [inside_exact]
  unfold textAt
  dsimp only
  split
  · rename_i outside
    constructor
    · intro refused
      cases refused
    · rintro ⟨inside, _⟩
      omega
  · rename_i inside
    split
    · rename_i found
      simp [found]
    · rename_i missed
      constructor
      · intro refused
        cases Except.error.inj refused
        exact ⟨by omega, missed, rfl, rfl⟩
      · rintro ⟨_, _, rfl, rfl⟩
        rfl

theorem textAt_bytes {text : String} (found : d.textAt s = .ok text) :
    text.toByteArray = d.text.toByteArray.extract (s.start - d.start) (s.stop - d.start) := by
  have ordered := s.ordered
  obtain ⟨_, sliced⟩ := textAt_found.mp found
  rw [← String.toList_ofList (l := d.chars)] at sliced
  exact Text.slice_extract (by omega) sliced

theorem textAt_shown : (∃ text, d.textAt s = .ok text) ↔ d.Inside s ∧ d.Uncut s := by
  rw [uncut_exact]
  constructor
  · rintro ⟨text, found⟩
    obtain ⟨inside, sliced⟩ := textAt_found.mp found
    exact ⟨inside, _, sliced⟩
  · rintro ⟨inside, chars, sliced⟩
    exact ⟨String.ofList chars, textAt_found.mpr ⟨inside, by rw [sliced, String.toList_ofList]⟩⟩

theorem textAt_split : d.textAt s = .error (.splitsCharacter s.start s.stop) ↔ d.Inside s ∧ ¬ d.Uncut s := by
  rw [textAt_splits, uncut_exact, not_exists, Option.eq_none_iff_forall_ne_some]
  simp only [ne_eq, and_true]

theorem textAt_beyond :
    d.textAt s = .error (.outsideText s.start s.stop d.start (d.start + d.text.utf8ByteSize)) ↔ ¬ d.Inside s := by
  rw [textAt_outside, inside_exact, text_size]
  omega

-- Ranges that meet are read as one.
theorem textAt_met {a b : Span} {first second : String} (front : d.textAt a = .ok first)
    (back : d.textAt b = .ok second) (meet : a.stop = b.start) (starts : s.start = a.start)
    (stops : s.stop = b.stop) : d.textAt s = .ok (first ++ second) := by
  obtain ⟨front_in, front_uncut⟩ := textAt_shown.mp ⟨first, front⟩
  obtain ⟨back_in, back_uncut⟩ := textAt_shown.mp ⟨second, back⟩
  have inside : d.Inside s := ⟨starts ▸ front_in.1, stops ▸ back_in.2⟩
  have uncut : d.Uncut s := ⟨starts ▸ front_uncut.1, stops ▸ back_uncut.2⟩
  obtain ⟨whole, found⟩ := textAt_shown.mpr ⟨inside, uncut⟩
  have a_ordered := a.ordered
  have b_ordered := b.ordered
  have bytes : whole.toByteArray = (first ++ second).toByteArray := by
    rw [String.toByteArray_append, textAt_bytes front, textAt_bytes back, textAt_bytes found, meet, starts, stops]
    exact ByteArray.extract_eq_extract_append_extract (b.start - d.start) (by omega) (by omega)
  rw [found, String.toByteArray_inj.mp bytes]

theorem textAt?_inside (inside : d.Inside s) : d.textAt? s = some (d.textAt s) := by
  unfold textAt?
  split
  · rename_i told
    have beyond := (textAt_outside.mp told).1
    have within := inside_exact.mp inside
    omega
  · rfl

theorem textAt?_beyond (beyond : ¬ d.Inside s) : d.textAt? s =
    if d.start + d.text.utf8ByteSize ≤ maxOffset
    then some (.error (.outsideText s.start s.stop d.start (d.start + d.text.utf8ByteSize))) else none := by
  rw [textAt?, textAt_beyond.mpr beyond]

-- Only the end that a refusal tells is added up, so nothing stops any other answer.
theorem textAt?_told {answer : Except RangeFault String}
    (other : ∀ start stop textStart textStop, answer ≠ .error (.outsideText start stop textStart textStop)) :
    d.textAt? s = some answer ↔ d.textAt s = answer := by
  by_cases inside : d.Inside s
  · rw [textAt?_inside inside, Option.some.injEq]
  · have differs := other s.start s.stop d.start (d.start + d.text.utf8ByteSize)
    rw [textAt?_beyond inside, textAt_beyond.mpr inside]
    split
    · rw [Option.some.injEq]
    · exact ⟨nofun, fun same => absurd same.symm differs⟩

theorem textAt?_ok {text : String} : d.textAt? s = some (.ok text) ↔ d.textAt s = .ok text := textAt?_told nofun

theorem textAt?_split :
    d.textAt? s = some (.error (.splitsCharacter s.start s.stop)) ↔ d.Inside s ∧ ¬ d.Uncut s :=
  (textAt?_told (by nofun)).trans textAt_split

theorem textAt?_refused :
    (d.textAt? s = some (.error (.outsideText s.start s.stop d.start (d.start + d.text.utf8ByteSize)))
        ↔ ¬ d.Inside s ∧ d.start + d.text.utf8ByteSize ≤ maxOffset)
      ∧ (d.textAt? s = none ↔ ¬ d.Inside s ∧ maxOffset < d.start + d.text.utf8ByteSize) := by
  by_cases inside : d.Inside s
  · rw [textAt?_inside inside]
    simp [textAt_beyond, inside]
  · rw [textAt?_beyond inside]
    split
    · next fits => simp [inside, fits, Nat.not_lt_of_le fits]
    · next passes => simp [inside, passes, Nat.lt_of_not_le passes]

-- Every outcome of reading a range, and when it comes about. Of a document only its start and its text
-- count, so that nothing is asked of its layout. A text that ends past the limit leaves what lies outside it
-- without an answer.
theorem textAt_outcomes (d : Document) :
    (∀ s : Span,
      ((∃ text, d.textAt? s = some (.ok text)) ↔ d.Inside s ∧ d.Uncut s)
        ∧ (∀ text, d.textAt? s = some (.ok text) →
          text.toByteArray = d.text.toByteArray.extract (s.start - d.start) (s.stop - d.start))
        ∧ (d.textAt? s = some (.error (.splitsCharacter s.start s.stop)) ↔ d.Inside s ∧ ¬ d.Uncut s)
        ∧ (d.textAt? s = some (.error (.outsideText s.start s.stop d.start (d.start + d.text.utf8ByteSize)))
          ↔ ¬ d.Inside s ∧ d.start + d.text.utf8ByteSize ≤ maxOffset)
        ∧ (d.textAt? s = none ↔ ¬ d.Inside s ∧ maxOffset < d.start + d.text.utf8ByteSize))
      ∧ ∀ x y z (first : x ≤ y) (second : y ≤ z) (bounded : z ≤ maxOffset) (front back : String),
        d.textAt? ⟨x, y, first, Nat.le_trans second bounded⟩ = some (.ok front) →
        d.textAt? ⟨y, z, second, bounded⟩ = some (.ok back) →
        d.textAt? ⟨x, z, Nat.le_trans first second, bounded⟩ = some (.ok (front ++ back)) := by
  simp only [textAt?_ok]
  constructor
  · intro s
    exact ⟨textAt_shown, fun _ => textAt_bytes, textAt?_split, textAt?_refused⟩
  · intro x y z first second bounded front back found next
    exact textAt_met found next rfl rfl rfl

-- Two bytes of one character and a gap. Ranges that meet are read, one that ends in the character, and one in front.
def wideWords : Document :=
  (empty ⟨1⟩).addInPlace (.ofTokens [.spanning "é" (.clamped 3 2), .spanning "b" (.clamped 6 1)])

-- Two words over the same two offsets, the last there are. Their text takes five bytes.
def edgeLine : Sentence := .ofTokens [.spanning "ab" (.clamped (maxOffset - 2) 2)]

def edge : Document := ((empty ⟨1⟩).addInPlace edgeLine).addInPlace edgeLine

theorem wideWords_outcomes : wideWords.textAt? (.clamped 3 4) = some (.ok ("é " ++ "b"))
    ∧ wideWords.textAt? (.clamped 4 3) = some (.error (.splitsCharacter 4 7))
    ∧ wideWords.textAt? (.clamped 2 3) = some (.error (.outsideText 2 5 3 7))
    ∧ edge.textAt? (.clamped (maxOffset - 2) 2) = some (.ok "ab") ∧ edge.textAt? (.clamped 7 2) = none := by
  obtain ⟨outcomes, joins⟩ := textAt_outcomes wideWords
  have met := joins 3 6 7 (by decide) (by decide) (by decide) "é " "b" (by decide) (by decide)
  have inside : wideWords.Inside (.clamped 4 3) := ⟨by decide, by decide⟩
  have cut : ¬ wideWords.Uncut (.clamped 4 3) := by
    rintro ⟨starts, _⟩
    exact absurd (String.Pos.Raw.isValid_eq_true_iff.mpr starts) (by decide)
  have ahead : ¬ wideWords.Inside (.clamped 2 3) := by
    rintro ⟨starts, _⟩
    exact absurd starts (by decide)
  have far : ¬ edge.Inside (.clamped 7 2) := by
    rintro ⟨starts, _⟩
    exact absurd starts (by decide)
  obtain ⟨_, _, splits, _, _⟩ := outcomes (.clamped 4 3)
  obtain ⟨_, _, _, refuses, _⟩ := outcomes (.clamped 2 3)
  obtain ⟨_, _, _, _, stops⟩ := (textAt_outcomes edge).1 (.clamped 7 2)
  exact ⟨met, splits.mpr ⟨inside, cut⟩, refuses.mpr ⟨ahead, by decide⟩, by decide, stops.mpr ⟨far, by decide⟩⟩

-- The range lies in front of the text, and yet no refusal is told.
theorem edge_stops : edge.Reached ∧ edge.text = "ab ab" ∧ ¬ edge.Inside (.clamped 0 1)
    ∧ ¬ ∃ fault, edge.textAt? (.clamped 0 1) = some (.error fault) := by
  have outside : ¬ edge.Inside (.clamped 0 1) := by
    rintro ⟨starts, _⟩
    exact absurd starts (by decide)
  have stops : edge.textAt? (.clamped 0 1) = none := by decide
  refine ⟨.addInPlace (.addInPlace (.new _) (.ofTokens _)) (.ofTokens _), by decide, outside, ?_⟩
  rintro ⟨fault, told⟩
  cases stops.symm.trans told

end Document

end Marginalia
