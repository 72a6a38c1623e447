import Marginalia.Proofs.Excerpts
import Marginalia.Proofs.Moves
import Marginalia.Proofs.Selections
import Marginalia.Proofs.Slots
import Mathlib.Data.List.Forall2
import Mathlib.Data.List.Induction

namespace Marginalia

namespace Sentence

-- The words of a sentence with their offsets counted from its start.
def words (s : Sentence) : List (String × Int × Int) :=
  s.tokens.map fun t => (t.text, (t.start : Int) - s.start, (t.stop : Int) - s.start)

-- The same text and the same words, wherever it stands.
structure Carried (s placed : Sentence) : Prop where
  text : placed.text = s.text
  words : placed.words = s.words

theorem movedTo_carried {s : Sentence} (covered : s.Covered) {place : Nat}
    (fits : place + s.length ≤ maxOffset) : s.Carried (s.movedTo place) := by
  have placed := movedTo_placed covered fits
  obtain ⟨move, tokens, moved⟩ := placed.tokens
  refine ⟨placed.kept.text, ?_⟩
  rw [words, words, placed.start, tokens, List.map_map]
  apply List.map_congr_left
  intro t member
  have starts := (moved t member).start
  have stops := (moved t member).stop
  refine Prod.ext (moved t member).text (Prod.ext ?_ ?_)
  · dsimp only [Function.comp_apply]
    omega
  · dsimp only [Function.comp_apply]
    omega

theorem WellLaid.text_size {s : Sentence} (laid : s.WellLaid) : s.text.utf8ByteSize = s.length := by
  have reaches : s.span.start + Text.bytes (Layout.chars s.span.start s.tokens) = s.span.stop :=
    Layout.bytes_cover laid.covers (Layout.forward_filled laid.filled laid.ordered) fun t member =>
      Token.isEmpty_false.mpr (laid.filled t member)
  rw [text, Layout.text, Text.bytes_string, length, Span.length, ← reaches]
  exact (Nat.add_sub_cancel_left ..).symm

theorem texts_carried {sentences placed : List Sentence} (carried : List.Forall₂ Carried sentences placed) :
    placed.map text = sentences.map text := by
  induction carried with
  | nil => rfl
  | cons same _ ih => rw [List.map_cons, List.map_cons, same.text, ih]

end Sentence

namespace Document

theorem WellLaid.last_stop {d : Document} (laid : d.WellLaid) {last : Sentence}
    (ends : last ∈ d.sentences.getLast?) : last.stop = d.stop := by
  have member := List.mem_of_mem_getLast? ends
  obtain ⟨_, ⟨_, listed, stops⟩, bounds⟩ := Span.isCover_exact.mp (laid.whole (List.ne_nil_of_mem member))
  obtain ⟨s, held, rfl⟩ := List.mem_map.mp listed
  have greatest := Snippet.along_last laid.sentences_along ends held
  have inside := bounds last.span (List.mem_map_of_mem member)
  simp only [Sentence.stop, stop] at *
  omega

theorem WellLaid.text_stop {d : Document} (laid : d.WellLaid) : d.start + d.text.utf8ByteSize = d.stop := by
  rw [text, Text.bytes_string]
  exact laid.laid_stop

theorem addInPlace_first {d : Document} (bare : d.sentences = []) {s : Sentence} (held : s.tokens ≠ []) :
    (d.addInPlace s).start = s.start ∧ (d.addInPlace s).text = s.text := by
  have words : (d.addInPlace s).tokens = s.tokens := by rw [tokens_addInPlace, tokens_bare bare, List.nil_append]
  have same_start : (d.addInPlace s).start = s.start := by
    rw [start, addInPlace, bare]
    rfl
  refine ⟨same_start, ?_⟩
  rw [text, chars_tokens (words ▸ held), words, same_start]
  rfl

-- What comes behind the end leaves the text in front of it as it is.
theorem addInPlace_text {d : Document} (laid : d.WellLaid) (held : d.sentences ≠ []) {s : Sentence}
    (added : s.WellLaid) (behind : d.stop ≤ s.start) : (d.addInPlace s).start = d.start
      ∧ (d.addInPlace s).text = d.text ++ (String.ofList (Text.blanks (s.start - d.stop)) ++ s.text) := by
  have words := laid.tokens_held held
  have more : (d.addInPlace s).tokens ≠ [] := by simp [tokens_addInPlace, words]
  have same_start : (d.addInPlace s).start = d.start := by
    have ordered := d.span.ordered
    have some_there : d.sentences.isEmpty = false := by simpa using held
    simp only [addInPlace, some_there, Bool.false_eq_true, if_false, start, stop, Span.cover,
      Sentence.start] at *
    omega
  have reached : Layout.finish d.start d.tokens = d.stop :=
    Layout.finish_cover (laid.token_cover held) laid.forward fun t member => laid.inked member
  obtain ⟨first, first_in⟩ := List.exists_mem_of_ne_nil _ added.held
  refine ⟨same_start, ?_⟩
  rw [text, chars_tokens more, tokens_addInPlace, same_start, Layout.chars_append, reached,
    Layout.chars_lead behind (fun t member _ => (covered_bounds added.covered member).1)
      ⟨first, first_in, Token.isEmpty_false.mpr (added.filled first first_in)⟩,
    String.ofList_append, String.ofList_append, ← chars_tokens words]
  rfl

-- Sentences put one behind the other in a new document.
def inRow (sentences : List Sentence) (handle : Handle) : Document :=
  sentences.foldl addAtEnd (empty handle)

-- The texts of sentences with a blank between each two.
def joined (sentences : List Sentence) : String := " ".intercalate (sentences.map Sentence.text)

theorem joined_last {sentences : List Sentence} (held : sentences ≠ []) (s : Sentence) :
    joined (sentences ++ [s]) = joined sentences ++ (" " ++ s.text) := by
  have texts : sentences.map Sentence.text ≠ [] := mt List.map_eq_nil_iff.mp held
  rw [joined, List.map_append, List.map_singleton,
    String.intercalate_append_of_ne_nil texts (List.cons_ne_nil _ _), String.intercalate_singleton,
    String.append_assoc]
  rfl

-- What a document is of sentences that were put into it one behind the other.
structure Row (sentences : List Sentence) (d : Document) : Prop where
  laid : d.WellLaid
  start : d.start = 0
  text : d.text = joined sentences
  spaced : d.sentences.IsChain fun a b => b.start = a.stop + 1
  carried : List.Forall₂ Sentence.Carried sentences d.sentences

variable {sentences : List Sentence} {d : Document} {s : Sentence}

theorem Row.stop (row : Row sentences d) : d.stop = (joined sentences).utf8ByteSize := by
  rw [← row.text, ← row.laid.text_stop, row.start, Nat.zero_add]

theorem Row.bare (row : Row sentences d) : d.sentences = [] ↔ sentences = [] := by
  rw [← List.length_eq_zero_iff, ← List.length_eq_zero_iff, row.carried.length_eq]

-- Where the next sentence will end is where the joined text will.
theorem Row.room (row : Row sentences d) (added : s.WellLaid) :
    d.landing + s.length = (joined (sentences ++ [s])).utf8ByteSize := by
  by_cases bare : sentences = []
  · have stop := row.stop
    subst bare
    rw [landing, row.bare.mpr rfl, ← added.text_size, stop]
    simp [joined]
  · have held : d.sentences ≠ [] := mt row.bare.mp bare
    rw [joined_last bare, String.utf8ByteSize_append, String.utf8ByteSize_append, added.text_size,
      ← row.stop, landing, if_neg (by simpa using held), Nat.add_assoc]
    rfl

theorem Row.step (row : Row sentences d) (added : s.WellLaid)
    (fits : (joined (sentences ++ [s])).utf8ByteSize ≤ maxOffset) : Row (sentences ++ [s]) (d.addAtEnd s) := by
  rw [← row.room added] at fits
  have laid := addAtEnd_wellLaid row.laid added fits
  have moved := Sentence.movedTo_wellLaid added fits
  have carried := Sentence.movedTo_carried added.covered fits
  have placed := (Sentence.movedTo_ends fits).1
  have all_carried := List.rel_append row.carried (.cons carried .nil)
  rw [addAtEnd_inPlace row.laid.bare] at laid ⊢
  by_cases bare : sentences = []
  · subst bare
    have none_held := row.bare.mpr rfl
    have at_zero : d.landing = 0 := by
      rw [landing, none_held, row.stop]
      rfl
    obtain ⟨start, text⟩ := addInPlace_first none_held moved.held
    refine ⟨laid, ?_, ?_, ?_, all_carried⟩
    · rw [start, placed, at_zero]
    · rw [text, carried.text]
      exact String.intercalate_singleton.symm
    · rw [addInPlace_sentences, none_held]
      exact .singleton _
  · have held := mt row.bare.mp bare
    have landed : d.landing = d.stop + 1 := if_neg (by simpa using held)
    rw [landed] at placed
    obtain ⟨start, text⟩ := addInPlace_text row.laid held moved (by rw [landed, placed]; exact Nat.le_succ _)
    refine ⟨laid, start.trans row.start, ?_, ?_, all_carried⟩
    · rw [text, row.text, carried.text, landed, placed, Nat.add_sub_cancel_left, joined_last bare]
      rfl
    · rw [addInPlace_sentences]
      refine List.isChain_append.mpr ⟨row.spaced, .singleton _, ?_⟩
      intro last ends next there
      cases Option.some.inj there
      rw [row.laid.last_stop ends, landed, placed]

theorem joined_grows (sentences : List Sentence) (s : Sentence) :
    (joined sentences).utf8ByteSize ≤ (joined (sentences ++ [s])).utf8ByteSize := by
  by_cases bare : sentences = []
  · rw [bare]
    exact Nat.zero_le _
  · rw [joined_last bare, String.utf8ByteSize_append]
    exact Nat.le_add_right _ _

-- Induction from the end: a sentence comes behind all those that were put in before it.
theorem inRow_row (sentences : List Sentence) (each : ∀ s ∈ sentences, s.WellLaid)
    (fits : (joined sentences).utf8ByteSize ≤ maxOffset) (handle : Handle) :
    Row sentences (inRow sentences handle) := by
  induction sentences using List.reverseRecOn with
  | nil => exact ⟨empty_wellLaid handle, rfl, rfl, .nil, .nil⟩
  | append_singleton rest s ih =>
    have row := ih (fun t member => each t (List.mem_append_left _ member))
      (Nat.le_trans (joined_grows rest s) fits)
    rw [inRow, List.foldl_concat]
    exact row.step (each s (by simp)) fits

theorem addAtEnd?_fits (covered : s.Covered) (fits : d.landing + s.length ≤ maxOffset) :
    d.addAtEnd? s = some (d.addAtEnd s) := by
  refine addAtEnd?_exact.mpr ⟨Nat.le_trans (Nat.le_add_right _ _) fits, ?_, rfl⟩
  intro t member
  have inside := covered_bounds covered member
  have ordered := t.span.ordered
  simp only [Sentence.length, Span.length, Sentence.start, Sentence.stop, Token.start, Token.stop] at *
  omega

-- No sum on the way passes the limit, so every sentence is taken.
theorem inRow_carried (sentences : List Sentence) (each : ∀ s ∈ sentences, s.WellLaid)
    (fits : (joined sentences).utf8ByteSize ≤ maxOffset) (handle : Handle) :
    sentences.foldlM addAtEnd? (empty handle) = some (inRow sentences handle) := by
  induction sentences using List.reverseRecOn with
  | nil => rfl
  | append_singleton rest s ih =>
    have before := Nat.le_trans (joined_grows rest s) fits
    have others : ∀ t ∈ rest, t.WellLaid := fun t member => each t (List.mem_append_left _ member)
    have added : s.WellLaid := each s (by simp)
    have room := (inRow_row rest others before handle).room added
    have taken := addAtEnd?_fits added.covered (room ▸ fits)
    have longer : inRow (rest ++ [s]) handle = (inRow rest handle).addAtEnd s :=
      List.foldl_concat ..
    rw [List.foldlM_append, ih others before, longer]
    simp [taken]

end Document

namespace Snippet

-- All sentences in their order, listed one by one.
theorem ofSentences_all (d : Document) : ofSentences d (List.range d.sentences.length)
    = .ok ⟨d, List.range d.sentences.length, none⟩ :=
  ofSentences_exact.mpr ⟨fun _ member => List.mem_range.mp member, rfl⟩

theorem sentences_all (d : Document) (span? : Option Span) :
    (Snippet.mk d (List.range d.sentences.length) span?).sentences = d.sentences := by
  have finds : d.Finds (List.range d.sentences.length) := fun _ member => List.mem_range.mp member
  have listed : (List.range d.sentences.length).map (d.sentences[·]?) = d.sentences.map some := by
    apply List.ext_getElem
    · rw [List.length_map, List.length_map, List.length_range]
    · intro i _ _
      rw [List.getElem_map, List.getElem_map, List.getElem_range, List.getElem?_eq_getElem]
  exact List.map_injective_iff.mpr (fun _ _ same => Option.some.inj same) (finds.shown.trans listed)

end Snippet

namespace Document

-- Ranges saturate, so the joined text must not be longer than the last offset. Its length is all that
-- is asked for: wherever the sentences stood, no offset in between is larger.
theorem inRow_joins {sentences : List Sentence} (each : ∀ s ∈ sentences, s.WellLaid)
    (fits : (" ".intercalate (sentences.map Sentence.text)).utf8ByteSize ≤ maxOffset) (handle : Handle) :
    (inRow sentences handle).text = " ".intercalate (sentences.map Sentence.text)
      ∧ (inRow sentences handle).start = 0
      ∧ (inRow sentences handle).stop = (inRow sentences handle).text.utf8ByteSize
      ∧ ((inRow sentences handle).sentences.IsChain fun a b => b.start = a.stop + 1)
      ∧ List.Forall₂ Sentence.Carried sentences (inRow sentences handle).sentences
      ∧ ∃ s, Snippet.ofSentences (inRow sentences handle)
          (List.range (inRow sentences handle).sentences.length) = .ok s
        ∧ s.text = (inRow sentences handle).text := by
  have row := inRow_row sentences each fits handle
  refine ⟨row.text, row.start, ?_, row.spaced, row.carried, _, Snippet.ofSentences_all _, ?_⟩
  · rw [row.stop, row.text]
  · rw [Snippet.text, Snippet.sentences_all, Sentence.texts_carried row.carried, row.text]
    rfl

-- A token cut to its room, one with room left, and offsets out of order.
def oddLine : Sentence := .ofTokens [.spanning "doué" (.clamped 40 4), .spanning "x" (.clamped 46 3)]

def farLine : Sentence := .ofTokens [.spanning "ok" (.clamped (maxOffset - 2) 2)]

def nearLine : Sentence := .ofTokens [.spanning "fin" (.clamped 0 3)]

def oddLines : Document := inRow [oddLine, farLine, nearLine] ⟨1⟩

theorem oddLines_joined : (∀ s ∈ [oddLine, farLine, nearLine], s.WellLaid)
    ∧ oddLines.text = "dou   x   ok fin" ∧ oddLines.stop = 16
    ∧ oddLines.sentences.IsChain fun a b => b.start = a.stop + 1 := by
  have each : ∀ s ∈ [oddLine, farLine, nearLine], s.WellLaid := by
    intro s member
    obtain rfl | rfl | rfl : s = oddLine ∨ s = farLine ∨ s = nearLine := by simpa using member
    all_goals exact ⟨by decide, by decide, Token.chain_pairwise.mpr (by decide), by decide⟩
  obtain ⟨text, _, stop, spaced, _⟩ := inRow_joins each (by decide) ⟨1⟩
  have read : oddLines.text = "dou   x   ok fin" := text.trans (by decide)
  refine ⟨each, read, ?_, spaced⟩
  rw [show oddLines.stop = oddLines.text.utf8ByteSize from stop, read]
  decide

-- Behind a sentence that leaves three offsets, the next one loses a byte of its last word.
def wideLine : Sentence := .ofTokens [.spanning "a" (.clamped 0 (maxOffset - 4))]

def cutLine : Sentence := .ofTokens [.spanning "bb" (.clamped 0 2), .spanning "cc" (.clamped 2 2)]

theorem cutLine_not_carried : (∀ s ∈ [wideLine, cutLine], s.WellLaid)
    ∧ ¬ List.Forall₂ Sentence.Carried [wideLine, cutLine] (inRow [wideLine, cutLine] ⟨1⟩).sentences := by
  constructor
  · intro s member
    obtain rfl | rfl : s = wideLine ∨ s = cutLine := by simpa using member
    all_goals exact ⟨by decide, by decide, Token.chain_pairwise.mpr (by decide), by decide⟩
  · intro carried
    have same := (List.forall₂_iff_get.mp carried).2 1 (by decide) (by decide)
    exact absurd same.words (by decide)

end Document

end Marginalia
