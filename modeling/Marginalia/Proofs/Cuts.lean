import Marginalia.Proofs.Layouts
import Marginalia.Segmenting

namespace Marginalia.Segmenting

open Text

-- The words of a text in order, each with the offset it starts at.
def spread (sentences words : Cutter) (text : List Char) : List (Nat × List Char) :=
  (located 0 (sentences.cut text)).flatMap fun piece => located piece.1 (words.cut piece.2)

theorem located_append (start : Nat) (first second : List (List Char)) :
    located start (first ++ second)
      = located start first ++ located (start + bytes first.flatten) second := by
  induction first generalizing start with
  | nil => rfl
  | cons piece rest ih =>
    simp only [List.cons_append, located, ih, List.flatten_cons, bytes_append, Nat.add_assoc]

-- Cutting located pieces once more locates the smaller pieces.
theorem located_cut (words : Cutter) (start : Nat) (pieces : List (List Char)) :
    ((located start pieces).flatMap fun piece => located piece.1 (words.cut piece.2))
      = located start (pieces.flatMap words.cut) := by
  induction pieces generalizing start with
  | nil => rfl
  | cons piece rest ih =>
    simp only [located, List.flatMap_cons, ih, located_append, words.whole]

theorem spread_located (sentences words : Cutter) (text : List Char) :
    spread sentences words text = located 0 ((sentences.cut text).flatMap words.cut) :=
  located_cut words 0 _

theorem cut_whole (sentences words : Cutter) (text : List Char) :
    ((sentences.cut text).flatMap words.cut).flatten = text := by
  have inner : ∀ pieces : List (List Char), (pieces.flatMap words.cut).flatten = pieces.flatten := by
    intro pieces
    induction pieces with
    | nil => rfl
    | cons piece rest ih => simp only [List.flatMap_cons, List.flatten_append, ih, words.whole, List.flatten_cons]
  rw [inner, sentences.whole]

theorem cut_filled (sentences words : Cutter) (text : List Char) :
    ∀ piece ∈ (sentences.cut text).flatMap words.cut, piece ≠ [] := by
  intro piece member
  obtain ⟨outer, _, inside⟩ := List.mem_flatMap.mp member
  exact words.filled outer piece inside

-- A located piece stands in the text where its offset says.
theorem located_sliced {start : Nat} {pieces : List (List Char)} {word : Nat × List Char}
    (member : word ∈ located start pieces) :
    start ≤ word.1 ∧ word.1 + bytes word.2 ≤ start + bytes pieces.flatten
      ∧ slice (word.1 - start) (word.1 + bytes word.2 - start) pieces.flatten = some word.2 := by
  induction pieces generalizing start with
  | nil => cases member
  | cons piece rest ih =>
    rw [List.flatten_cons, bytes_append]
    rcases List.mem_cons.mp member with rfl | later
    · refine ⟨Nat.le_refl _, by dsimp only; omega, ?_⟩
      simpa [bytes] using slice_middle [] piece rest.flatten
    · obtain ⟨starts, stops, sliced⟩ := ih later
      refine ⟨by omega, by omega, ?_⟩
      have moved := slice_behind piece sliced
      have start_there : bytes piece + (word.1 - (start + bytes piece)) = word.1 - start := by omega
      have stop_there : bytes piece + (word.1 + bytes word.2 - (start + bytes piece))
          = word.1 + bytes word.2 - start := by omega
      rwa [start_there, stop_there] at moved

theorem located_ordered (start : Nat) (pieces : List (List Char)) :
    (located start pieces).Pairwise fun a b => a.1 + bytes a.2 ≤ b.1 := by
  induction pieces generalizing start with
  | nil => exact .nil
  | cons piece rest ih =>
    exact List.pairwise_cons.mpr ⟨fun word member => (located_sliced member).1, ih _⟩

theorem mem_located {start : Nat} {pieces : List (List Char)} {word : Nat × List Char}
    (member : word ∈ located start pieces) : word.2 ∈ pieces := by
  induction pieces generalizing start with
  | nil => cases member
  | cons piece rest ih =>
    rcases List.mem_cons.mp member with rfl | later
    · exact List.mem_cons_self ..
    · exact List.mem_cons_of_mem _ (ih later)

def tokenOf (word : Nat × List Char) : Token := .starting (String.ofList word.2) word.1

theorem tokenOf_text (word : Nat × List Char) : (tokenOf word).text.toList = word.2 :=
  String.toList_ofList

theorem tokenOf_start (word : Nat × List Char) (fits : word.1 + bytes word.2 ≤ maxOffset) :
    (tokenOf word).start = word.1 := by
  simp only [tokenOf, Token.starting, Token.spanning, Token.start, Span.clamped]
  omega

theorem tokenOf_stop (word : Nat × List Char) (fits : word.1 + bytes word.2 ≤ maxOffset) :
    (tokenOf word).stop = word.1 + bytes word.2 := by
  simp only [tokenOf, Token.starting, Token.spanning, Token.stop, Span.clamped, Token.width,
    String.toList_ofList]
  omega

theorem tokenOf_length (word : Nat × List Char) (fits : word.1 + bytes word.2 ≤ maxOffset) :
    (tokenOf word).length = bytes word.2 := by
  have starts := tokenOf_start word fits
  have stops := tokenOf_stop word fits
  simp only [Token.length, Span.length, Token.start, Token.stop] at *
  omega

-- The token of a word fills its slot with the word itself.
theorem chars_word (cursor : Nat) (word : Nat × List Char) (filled : word.2 ≠ [])
    (fits : word.1 + bytes word.2 ≤ maxOffset) (rest : List Token) :
    Layout.chars cursor (tokenOf word :: rest)
      = Layout.lead cursor word.1 ++ word.2 ++ Layout.chars (word.1 + bytes word.2) rest := by
  have starts := tokenOf_start word fits
  have stops := tokenOf_stop word fits
  have size := bytes_pos filled
  have inked : (tokenOf word).isEmpty = false := Token.isEmpty_false.mpr (by omega)
  have whole : Layout.fill (bytes word.2) word.2 = word.2 := Layout.fill_whole rfl
  rw [Layout.chars_slot inked, starts, stops, tokenOf_length word fits, tokenOf_text, whole]

end Marginalia.Segmenting

namespace Marginalia.Sentence

theorem foldl_add_tokens (s : Sentence) (tokens : List Token) :
    (tokens.foldl add s).tokens = s.tokens ++ tokens := by
  induction tokens generalizing s with
  | nil => simp
  | cons t rest ih => simp [ih, add]

@[simp] theorem ofTokens_tokens (tokens : List Token) : (ofTokens tokens).tokens = tokens :=
  (foldl_add_tokens empty tokens).trans (List.nil_append tokens)

end Marginalia.Sentence

namespace Marginalia.Segmenting

theorem gather_tokens (latest : List Sentence) (tokens : List Token) :
    (gather latest tokens).reverse.flatMap Sentence.tokens
      = latest.reverse.flatMap Sentence.tokens ++ tokens := by
  unfold gather
  split
  · rename_i none_there
    simp [List.isEmpty_iff.mp none_there]
  · split
    · split <;> simp [Sentence.foldl_add_tokens]
    · simp

theorem foldl_gather_tokens (latest : List Sentence) (pieces : List (List Token)) :
    (pieces.foldl gather latest).reverse.flatMap Sentence.tokens
      = latest.reverse.flatMap Sentence.tokens ++ pieces.flatten := by
  induction pieces generalizing latest with
  | nil => simp
  | cons tokens rest ih => simp [ih, gather_tokens]

-- Folding sentences of breaks into those before them loses no word and repeats none.
theorem sentencesBy_tokens (s : Segmenting) (sentences words : Text.Cutter) (text : List Char) :
    (s.sentencesBy sentences words text).flatMap Sentence.tokens
      = ((spread sentences words text).filter fun word => s.keeps word.2).map tokenOf := by
  rw [sentencesBy, foldl_gather_tokens, spread, List.filter_flatMap, List.map_flatMap, List.flatMap_def]
  rfl

-- What sentences in the making always are: covered by their range, and never without tokens.
def Sound (sentences : List Sentence) : Prop := ∀ s ∈ sentences, s.Covered ∧ s.tokens ≠ []

theorem gather_sound {latest : List Sentence} (sound : Sound latest) (tokens : List Token) :
    Sound (gather latest tokens) := by
  unfold gather
  split
  · exact sound
  · rename_i some_there
    have fresh : (Sentence.ofTokens tokens).Covered ∧ (Sentence.ofTokens tokens).tokens ≠ [] :=
      ⟨Sentence.ofTokens_covered tokens, by simpa using some_there⟩
    split
    · rename_i previous before
      obtain ⟨head, tail⟩ := List.forall_mem_cons.mp sound
      split
      · refine List.forall_mem_cons.mpr ⟨⟨Sentence.foldl_add_covered head.1 tokens, ?_⟩, tail⟩
        simp [Sentence.foldl_add_tokens, head.2]
      · exact List.forall_mem_cons.mpr ⟨fresh, sound⟩
    · exact List.forall_mem_cons.mpr ⟨fresh, fun s member => nomatch member⟩

theorem sentencesBy_sound (s : Segmenting) (sentences words : Text.Cutter) (text : List Char) :
    Sound (s.sentencesBy sentences words text) := by
  have gathered : ∀ (pieces : List (List Token)) (latest : List Sentence), Sound latest →
      Sound (pieces.foldl gather latest) := by
    intro pieces
    induction pieces with
    | nil => exact fun _ sound => sound
    | cons tokens rest ih => exact fun _ sound => ih _ (gather_sound sound tokens)
  intro t member
  exact gathered _ [] (fun s member => nomatch member) t (List.mem_reverse.mp member)

end Marginalia.Segmenting
