import Marginalia.Proofs.Cuts
import Marginalia.Proofs.WellLaid

namespace Marginalia

namespace Segmenting

open Text

-- What a setting keeps: words with something in them, and line breaks where they are wanted.
def Wanted (s : Segmenting) (word : List Char) : Prop :=
  (∃ c ∈ word, isBlank c = false) ∨ (s.keepBreaks = true ∧ '\n' ∈ word)

theorem keeps_exact (s : Segmenting) (word : List Char) : s.keeps word = true ↔ s.Wanted word := by
  simp [keeps, Wanted, allBlank]

instance (s : Segmenting) (word : List Char) : Decidable (s.Wanted word) :=
  decidable_of_iff _ (s.keeps_exact word)

def kept (s : Segmenting) (words : List (Nat × List Char)) : List Token :=
  (words.filter fun word => s.keeps word.2).map tokenOf

theorem spread_fits {sentences words : Cutter} {text : List Char} {word : Nat × List Char}
    (member : word ∈ spread sentences words text) :
    word.1 + bytes word.2 ≤ bytes text ∧ slice word.1 (word.1 + bytes word.2) text = some word.2 := by
  rw [spread_located] at member
  have placed := located_sliced member
  rw [cut_whole] at placed
  simpa using placed.2

theorem spread_filled {sentences words : Cutter} {text : List Char} {word : Nat × List Char}
    (member : word ∈ spread sentences words text) : 0 < bytes word.2 := by
  rw [spread_located] at member
  exact bytes_pos (cut_filled sentences words text _ (mem_located member))

theorem spread_ordered (sentences words : Cutter) (text : List Char) :
    (spread sentences words text).Pairwise fun a b => a.1 + bytes a.2 ≤ b.1 := by
  rw [spread_located]
  exact located_ordered 0 _

theorem mem_kept {s : Segmenting} {sentences words : Cutter} {text : List Char}
    (small : bytes text ≤ maxOffset) {t : Token} (member : t ∈ s.kept (spread sentences words text)) :
    t.start < t.stop ∧ t.stop ≤ bytes text ∧ slice t.start t.stop text = some t.text.toList
      ∧ t.length = bytes t.text.toList := by
  obtain ⟨word, listed, rfl⟩ := List.mem_map.mp member
  have there := (List.mem_filter.mp listed).1
  obtain ⟨fits, sliced⟩ := spread_fits there
  have filled := spread_filled there
  have starts := tokenOf_start word (Nat.le_trans fits small)
  have stops := tokenOf_stop word (Nat.le_trans fits small)
  refine ⟨by omega, by omega, ?_, ?_⟩
  · rw [starts, stops, tokenOf_text, sliced]
  · rw [tokenOf_length word (Nat.le_trans fits small), tokenOf_text]

theorem kept_ordered {s : Segmenting} {sentences words : Cutter} {text : List Char}
    (small : bytes text ≤ maxOffset) : (s.kept (spread sentences words text)).IsChain Token.Before := by
  refine Token.chain_pairwise.mpr (List.pairwise_map.mpr ?_)
  refine ((spread_ordered sentences words text).filter _).imp_of_mem ?_
  intro a b a_in b_in before
  have a_fits := (spread_fits (List.mem_filter.mp a_in).1).1
  have b_fits := (spread_fits (List.mem_filter.mp b_in).1).1
  rw [Token.Before, tokenOf_stop a (by omega), tokenOf_start b (by omega)]
  exact before

theorem kept_words (s : Segmenting) {sentences words : Cutter} {text : List Char}
    (small : bytes text ≤ maxOffset) :
    (s.kept (spread sentences words text)).map (fun t => (t.start, t.text.toList))
      = (spread sentences words text).filter fun word => decide (s.Wanted word.2) := by
  have placed : ∀ word ∈ (spread sentences words text).filter fun word => s.keeps word.2,
      ((tokenOf word).start, (tokenOf word).text.toList) = word := by
    intro word member
    have fits := (spread_fits (List.mem_filter.mp member).1).1
    exact Prod.ext (tokenOf_start word (Nat.le_trans fits small)) (tokenOf_text word)
  have wanted : ((spread sentences words text).filter fun word => s.keeps word.2)
      = (spread sentences words text).filter fun word => decide (s.Wanted word.2) :=
    List.filter_congr fun word _ => by simp [← keeps_exact]
  rw [kept, List.map_map, ← wanted]
  exact (List.map_congr_left placed).trans (List.map_id _)

-- The text with every byte of a dropped word made a blank.
def masked (s : Segmenting) (words : List (Nat × List Char)) : List Char :=
  words.flatMap fun word => if s.Wanted word.2 then word.2 else blanks (bytes word.2)

-- Laying out the kept words writes the masked text, save for what was dropped at its end. The
-- cursor stands where the last kept word stopped; all in between was dropped.
theorem layout_masked (s : Segmenting) (start cursor : Nat) {pieces : List (List Char)}
    (back : cursor ≤ start) (small : start + bytes pieces.flatten ≤ maxOffset)
    (filled : ∀ piece ∈ pieces, piece ≠ []) :
    ∃ rest, blanks (start - cursor) ++ s.masked (located start pieces)
      = Layout.chars cursor (s.kept (located start pieces)) ++ blanks rest := by
  induction pieces generalizing start cursor with
  | nil => exact ⟨start - cursor, List.append_nil _⟩
  | cons piece rest ih =>
    rw [List.flatten_cons, bytes_append] at small
    have later : ∀ p ∈ rest, p ≠ [] := fun p member => filled p (by simp [member])
    cases keep : s.keeps piece with
    | false =>
      have unwanted : ¬ s.Wanted piece := fun wanted => by simp [(s.keeps_exact piece).mpr wanted] at keep
      obtain ⟨left, laid⟩ := ih (start + bytes piece) cursor (by omega) (by omega) later
      have gap : start + bytes piece - cursor = start - cursor + bytes piece := by omega
      rw [gap, blanks_add, List.append_assoc] at laid
      exact ⟨left, by simpa [masked, kept, located, keep, unwanted] using laid⟩
    | true =>
      obtain ⟨left, laid⟩ := ih (start + bytes piece) (start + bytes piece) (Nat.le_refl _) (by omega) later
      have unled : s.masked (located (start + bytes piece) rest)
          = Layout.chars (start + bytes piece) (s.kept (located (start + bytes piece) rest)) ++ blanks left := by
        simpa [blanks] using laid
      have first : s.kept (located start (piece :: rest))
          = tokenOf (start, piece) :: s.kept (located (start + bytes piece) rest) := by
        simp [kept, located, keep]
      have whole : s.masked (located start (piece :: rest))
          = piece ++ s.masked (located (start + bytes piece) rest) := by
        simp [masked, located, (s.keeps_exact piece).mp keep]
      have led : Layout.lead cursor start = blanks (start - cursor) := if_neg (by omega)
      refine ⟨left, ?_⟩
      rw [first, chars_word cursor (start, piece) (filled piece (by simp)) (by dsimp only; omega), led,
        whole, unled]
      simp only [List.append_assoc]

theorem masked_spaces (s : Segmenting) {words : List (Nat × List Char)}
    (spaces : ∀ word ∈ words, ¬ s.Wanted word.2 → ∀ c ∈ word.2, c = ' ') :
    s.masked words = words.flatMap Prod.snd := by
  induction words with
  | nil => rfl
  | cons word rest ih =>
    have tail := ih fun w member => spaces w (by simp [member])
    simp only [masked, List.flatMap_cons] at tail ⊢
    rw [tail]
    congr 1
    split
    · rfl
    · rename_i unwanted
      have all_spaces := spaces word (by simp) unwanted
      have plain : word.2 = blanks word.2.length := List.eq_replicate_of_mem all_spaces
      rw [plain, bytes_blanks]

theorem spread_whole (sentences words : Cutter) (text : List Char) :
    (spread sentences words text).flatMap Prod.snd = text := by
  have seconds : ∀ (start : Nat) (pieces : List (List Char)),
      (located start pieces).flatMap Prod.snd = pieces.flatten := by
    intro start pieces
    induction pieces generalizing start with
    | nil => rfl
    | cons piece rest ih => simp only [located, List.flatMap_cons, List.flatten_cons, ih]
  rw [spread_located, seconds, cut_whole]

end Segmenting

namespace Splitter

open Segmenting

-- Cutting by any two rules in place of those for Unicode texts.
def cutting (s : Segmenting) (sentences words : Text.Cutter) : Splitter :=
  ⟨fun text => .ok (s.sentencesBy sentences words text.toList)⟩

theorem ofSegmenting_cutting (s : Segmenting) :
    ofSegmenting s = cutting s Text.sentenceCutter Text.wordCutter := rfl

theorem gathered_tokens (sentences : List Sentence) (handle : Handle) :
    (gathered sentences handle).tokens = sentences.flatMap Sentence.tokens := by
  simp only [gathered, Document.tokens, Document.foldl_addInPlace_sentences]
  rfl

section Cut

variable (s : Segmenting) (sentences words : Text.Cutter) {text : List Char}

theorem cut_tokens (handle : Handle) : (gathered (s.sentencesBy sentences words text) handle).tokens
    = s.kept (spread sentences words text) := by
  rw [gathered_tokens, sentencesBy_tokens]
  rfl

theorem cut_wellLaid (small : Text.bytes text ≤ maxOffset) (handle : Handle) :
    (gathered (s.sentencesBy sentences words text) handle).WellLaid := by
  have sound := s.sentencesBy_sound sentences words text
  refine ⟨gathered_derived (fun t member => (sound t member).1) handle, ?_, ?_, ?_⟩
  · intro t member
    rw [gathered_sentences] at member
    exact (sound t member).2
  · intro t member
    rw [cut_tokens] at member
    exact (mem_kept small member).1
  · rw [cut_tokens]
    exact kept_ordered small

theorem cut_stop (small : Text.bytes text ≤ maxOffset) (handle : Handle) :
    (gathered (s.sentencesBy sentences words text) handle).stop ≤ Text.bytes text := by
  have laid := cut_wellLaid s sentences words small handle
  by_cases bare : (gathered (s.sentencesBy sentences words text) handle).sentences = []
  · simp [Document.stop, laid.bare bare, Span.origin]
  · obtain ⟨t, member, reaches⟩ := (laid.token_cover bare).last_token
    rw [cut_tokens] at member
    have inside := (mem_kept small member).2.1
    simp only [Token.stop, Document.stop] at *
    omega

theorem cut_textAt (small : Text.bytes text ≤ maxOffset) (handle : Handle) {t : Token}
    (member : t ∈ (gathered (s.sentencesBy sentences words text) handle).tokens) :
    (gathered (s.sentencesBy sentences words text) handle).textAt t.span = .ok t.text := by
  have laid := cut_wellLaid s sentences words small handle
  have held := laid.textAt_token member
  rw [cut_tokens] at member
  rw [held, Layout.fill_whole (mem_kept small member).2.2.2.symm, String.ofList_toList]

theorem cut_masked (small : Text.bytes text ≤ maxOffset) (handle : Handle) :
    let d := gathered (s.sentencesBy sentences words text) handle
    Text.slice d.start d.stop (s.masked (spread sentences words text)) = some d.chars := by
  intro d
  have laid : d.WellLaid := cut_wellLaid s sentences words small handle
  have tokens : d.tokens = s.kept (spread sentences words text) := cut_tokens s sentences words handle
  by_cases bare : d.sentences = []
  · have origin := laid.bare bare
    rw [Document.chars_bare bare]
    simp [Document.start, Document.stop, origin, Span.origin, Text.slice, Text.dropBytes_zero,
      Text.takeBytes_zero]
  · have whole := cut_whole sentences words text
    obtain ⟨rest, written⟩ := s.layout_masked 0 0 (Nat.le_refl 0) (by rw [whole]; omega)
      (cut_filled sentences words text)
    rw [← spread_located, ← tokens] at written
    have held := laid.tokens_held bare
    obtain ⟨t, others, split⟩ := List.exists_cons_of_ne_nil held
    have led := Layout.chars_lead (Nat.zero_le d.start)
      (fun t member _ => (laid.token_bounds member).1) ⟨t, by simp [split], laid.inked (by simp [split])⟩
    have size := laid.laid_stop
    have masked : s.masked (spread sentences words text)
        = Text.blanks d.start ++ (d.chars ++ Text.blanks rest) := by
      rw [Nat.sub_zero] at led
      rw [led, List.append_assoc] at written
      rw [Document.chars_tokens held]
      exact written
    exact Text.slice_exact.mpr ⟨_, _, masked, Text.bytes_blanks _, by omega⟩

end Cut

theorem document_cut (s : Segmenting) (sentences words : Text.Cutter) (text : String) (supply : Supply) :
    ∃ d, ((cutting s sentences words).document text supply).1 = .ok d
      ∧ d.span = (gathered (s.sentencesBy sentences words text.toList) ⟨supply.handle + 1⟩).span
      ∧ d.sentences = s.sentencesBy sentences words text.toList := by
  have sound := s.sentencesBy_sound sentences words text.toList
  have cut := gathered_derived (fun t member => (sound t member).1) ⟨supply.handle + 1⟩
  obtain ⟨span, kept⟩ := Document.append_onto_bare (Document.empty_derived ⟨supply.handle⟩) cut rfl
  exact ⟨_, (cutting s sentences words).document_accepted rfl supply, span,
    kept.trans (gathered_sentences _ _)⟩

-- The words a setting keeps and the blanks that stand for the others, offset by offset. No text
-- that can be held is longer than offsets can tell.
theorem document_keeps_words (s : Segmenting) (sentences words : Text.Cutter) (text : String)
    (supply : Supply) (small : Token.width text ≤ maxOffset) :
    ∃ d, ((cutting s sentences words).document text supply).1 = .ok d
      ∧ d.tokens.map (fun t => (t.start, t.text.toList))
          = (spread sentences words text.toList).filter (fun word => decide (s.Wanted word.2))
      ∧ d.tokens.Pairwise Token.Before
      ∧ (∀ t ∈ d.tokens, t.start < t.stop
        ∧ Text.slice t.start t.stop text.toList = some t.text.toList ∧ d.textAt t.span = .ok t.text)
      ∧ Text.slice d.start d.stop (s.masked (spread sentences words text.toList)) = some d.text.toList
      ∧ ((∀ word ∈ spread sentences words text.toList, ¬ s.Wanted word.2 → ∀ c ∈ word.2, c = ' ') →
        Text.slice d.start d.stop text.toList = some d.text.toList) := by
  obtain ⟨d, made, span, held⟩ := document_cut s sentences words text supply
  let cut := gathered (s.sentencesBy sentences words text.toList) ⟨supply.handle + 1⟩
  have same : d.sentences = cut.sentences := held.trans (gathered_sentences _ _).symm
  have chars : d.chars = cut.chars := Document.chars_of_tree span same
  have start : d.start = cut.start := congrArg Span.start span
  have stop : d.stop = cut.stop := congrArg Span.stop span
  have tokens : d.tokens = cut.tokens := congrArg (List.flatMap Sentence.tokens) same
  have kept_tokens := tokens.trans (cut_tokens s sentences words _)
  have masked := cut_masked s sentences words small ⟨supply.handle + 1⟩
  have text_chars : d.text.toList = cut.chars := by rw [Document.text, String.toList_ofList, chars]
  refine ⟨d, made, ?_, ?_, ?_, ?_, ?_⟩
  · rw [kept_tokens]
    exact s.kept_words small
  · rw [kept_tokens]
    exact Token.chain_pairwise.mp (kept_ordered small)
  · intro t member
    have placed := mem_kept small (kept_tokens ▸ member)
    refine ⟨placed.1, placed.2.2.1, ?_⟩
    rw [Document.textAt_of_tree span same]
    exact cut_textAt s sentences words small _ (tokens ▸ member)
  · rw [start, stop, text_chars]
    exact masked
  · intro spaces
    rw [start, stop, text_chars]
    have plain := s.masked_spaces spaces
    rw [spread_whole] at plain
    rw [plain] at masked
    exact masked

-- Two simple rules that cut the text below as the rules for Unicode texts do.
def uncut : Text.Cutter where
  cut text := if text.isEmpty then [] else [text]
  whole text := by cases text <;> simp
  filled text := by cases text <;> simp

def letters : Text.Cutter where
  cut text := text.map fun c => [c]
  whole text := by induction text <;> simp_all
  filled text := by simp

-- A wide blank of three bytes is dropped, and so is the blank before the line break that stays.
theorem wide_blank_keeps_words : Token.width "a\u3000é \n" ≤ maxOffset
    ∧ ∃ d, ((cutting .standard uncut letters).document "a\u3000é \n" .initial).1 = .ok d
      ∧ d.tokens.map (fun t => (t.start, t.text.toList)) = [(0, ['a']), (4, ['é']), (7, ['\n'])]
      ∧ Text.slice d.start d.stop "a   é \n".toList = some d.text.toList := by
  have small : Token.width "a\u3000é \n" ≤ maxOffset := by decide
  obtain ⟨d, made, tokens, _, _, text, _⟩ :=
    document_keeps_words .standard uncut letters "a\u3000é \n" .initial small
  have words : spread uncut letters "a\u3000é \n".toList
      = [(0, ['a']), (1, ['\u3000']), (4, ['é']), (6, [' ']), (7, ['\n'])] := by decide
  rw [words] at tokens text
  exact ⟨small, d, made, tokens.trans (by decide), text⟩

end Splitter

end Marginalia
