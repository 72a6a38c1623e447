import Marginalia.Proofs.Selections
import Marginalia.Proofs.Slots
import Marginalia.Proofs.Texts

namespace Marginalia

-- How long a layout is depends on the ranges of its tokens alone, however these lie.
theorem Layout.bytes_ranges (cursor : Nat) {tokens others : List Token}
    (ranges : others.map Token.span = tokens.map Token.span) :
    Text.bytes (chars cursor others) = Text.bytes (chars cursor tokens) := by
  induction tokens generalizing others cursor with
  | nil => rw [List.map_eq_nil_iff.mp ranges]
  | cons t rest ih =>
    obtain ⟨u, later, rfl, same, behind⟩ := List.map_eq_cons_iff.mp ranges
    have blank : u.isEmpty = t.isEmpty := congrArg Span.isEmpty same
    cases empty : t.isEmpty with
    | true =>
      rw [chars_empty (blank.trans empty), chars_empty empty]
      exact ih cursor behind
    | false =>
      have starts : u.start = t.start := congrArg Span.start same
      have stops : u.stop = t.stop := congrArg Span.stop same
      have room : u.length = t.length := congrArg Span.length same
      rw [chars_slot (blank.trans empty), chars_slot empty, Text.bytes_append, Text.bytes_append,
        Text.bytes_append, Text.bytes_append, fill_exact, fill_exact, starts, stops, room, ih t.stop behind]

theorem Sentence.mapText_id (s : Sentence) : s.mapText id = s := by
  have still : Token.mapText id = id := rfl
  rw [mapText, still, List.map_id]

namespace Document

-- Without tokens the text is one blank between each two sentences, whatever their ranges.
theorem chars_wordless {d : Document} (blank : d.isEmpty = true) :
    d.chars = [' '].intercalate (List.replicate d.sentences.length []) := by
  have none_there : ∀ s ∈ d.sentences, Layout.chars s.start s.tokens = [] := by
    intro s member
    rw [isEmpty, List.isEmpty_iff, tokens, List.flatMap_eq_nil_iff] at blank
    rw [blank s member]
    rfl
  rw [chars, if_pos blank, List.map_eq_replicate_iff.mpr none_there]

theorem bytes_of_shape {d e : Document} (span : e.span = d.span) (shape : e.shape = d.shape) :
    Text.bytes e.chars = Text.bytes d.chars := by
  have ranges : e.tokens.map Token.span = d.tokens.map Token.span := by
    rw [← shape_ranges, shape, shape_ranges]
  have count : e.sentences.length = d.sentences.length := by
    simpa only [Document.shape, List.length_map] using congrArg List.length shape
  have blank : e.isEmpty = d.isEmpty := by
    rw [isEmpty, isEmpty, ← List.isEmpty_map, ranges, List.isEmpty_map]
  cases empty : d.isEmpty with
  | true => rw [chars_wordless (blank.trans empty), chars_wordless empty, count]
  | false =>
    have words : ∀ x : Document, x.isEmpty = false → x.chars = Layout.chars x.start x.tokens := by
      intro x some_there
      exact chars_tokens (by simpa [isEmpty] using some_there)
    rw [words e (blank.trans empty), words d empty, start, start, span]
    exact Layout.bytes_ranges d.span.start ranges

-- Whether a range lies outside is a matter of its ends and of the length of the text.
theorem textAt_outside {d : Document} {s : Span} {start stop opens closes : Nat} :
    d.textAt s = .error (.outsideText start stop opens closes)
      ↔ (s.start < d.start ∨ d.start + Text.bytes d.chars < s.stop)
        ∧ start = s.start ∧ stop = s.stop ∧ opens = d.start ∧ closes = d.start + Text.bytes d.chars := by
  unfold textAt
  dsimp only
  split
  · rename_i beyond
    constructor
    · intro refused
      cases Except.error.inj refused
      exact ⟨beyond, rfl, rfl, rfl, rfl⟩
    · rintro ⟨_, rfl, rfl, rfl, rfl⟩
      rfl
  · rename_i inside
    constructor
    · intro refused
      split at refused <;> cases refused
    · intro beyond
      exact absurd beyond.1 inside

-- Ranges and attachments on both levels, without the words.
def frame (d : Document) : List (Span × List (Span × Keyed String Attachment)) :=
  d.sentences.map fun s => (s.span, s.tokens.map fun t => (t.span, t.attachments))

-- What a copy keeps of its document, and that every word went through the transform.
structure CopyOf (d : Document) (transform : String → String) (copy : Document) : Prop where
  frame : copy.frame = d.frame
  words : copy.tokens.map Token.text = d.tokens.map fun t => transform t.text
  span : copy.span = d.span
  id : copy.metadata.id = d.metadata.id
  provenance : copy.metadata.provenance = d.metadata.provenance
  notes : copy.notes = []
  tags : copy.tags = .empty
  size : copy.text.utf8ByteSize = d.text.utf8ByteSize
  outside : ∀ s start stop opens closes, copy.textAt s = .error (.outsideText start stop opens closes)
    ↔ d.textAt s = .error (.outsideText start stop opens closes)

variable (d : Document) (handle : Handle) (transform : String → String)

theorem copyWith_frame : (d.copyWith handle transform).frame = d.frame := by
  simp [frame, copyWith, Sentence.mapText, Token.mapText, Function.comp_def]

theorem copyWith_words : (d.copyWith handle transform).tokens.map Token.text
    = d.tokens.map fun t => transform t.text := by
  simp [tokens, copyWith, Sentence.mapText, Token.mapText, List.flatMap_map, List.map_flatMap, Function.comp_def]

theorem copyWith_bytes : Text.bytes (d.copyWith handle transform).chars = Text.bytes d.chars :=
  bytes_of_shape rfl (copyWith_shape d handle transform)

theorem copyWith_copyOf : d.CopyOf transform (d.copyWith handle transform) := by
  have size := copyWith_bytes d handle transform
  refine ⟨copyWith_frame d handle transform, copyWith_words d handle transform, rfl, rfl, rfl, rfl, rfl, ?_, ?_⟩
  · rw [text, text, Text.bytes_string, Text.bytes_string, size]
  · intro s start stop opens closes
    have place : (d.copyWith handle transform).start = d.start := rfl
    rw [textAt_outside, textAt_outside, size, place]

theorem copy_sentences : (d.copy handle).sentences = d.sentences :=
  List.map_id'' Sentence.mapText_id d.sentences

-- A copy of a copy is a copy by both transforms, one after the other.
theorem copyWith_twice (next : Handle) (second : String → String) :
    (d.copyWith handle transform).copyWith next second = d.copyWith next (second ∘ transform) := by
  simp [copyWith, Sentence.mapText, Token.mapText, Function.comp_def]

end Document

-- A desk with a copy of one of its documents on it.
def Desk.withCopy (w : Desk) (d : Document) (transform : String → String) : Desk :=
  { w with
    supply := (Supply.freshHandle w.supply).2
    documents := d.copyWith (Supply.freshHandle w.supply).1 transform :: w.documents }

namespace Document

-- Copies of any document, by any transform, whatever it makes of the words' lengths. On a desk a copy
-- comes to lie beside the documents that were there, its source among them, and shares no handle.
theorem copies_exact (d : Document) (transform : String → String) :
    (∀ handle, d.CopyOf transform (d.copyWith handle transform))
      ∧ (∀ handle, (d.copy handle).text = d.text)
      ∧ (∀ handle next second, (d.copyWith handle transform).copyWith next second
        = d.copyWith next (second ∘ transform))
      ∧ ∀ replaced w, Desk.Run replaced w → d ∈ w.documents → w.Step (w.withCopy d transform)
        ∧ ∀ e ∈ w.documents, e ∈ (w.withCopy d transform).documents
          ∧ e.handle ≠ (Supply.freshHandle w.supply).1 := by
  refine ⟨fun handle => copyWith_copyOf d handle transform, ?_, ?_, ?_⟩
  · intro handle
    exact congrArg String.ofList (chars_of_tree rfl (copy_sentences d handle))
  · intro handle next second
    exact copyWith_twice d handle transform next second
  · intro replaced w run held
    refine ⟨.opened (.copied held transform), fun e other => ⟨List.mem_cons_of_mem _ other, ?_⟩⟩
    intro same
    have numbered := run.sound.numbered e other
    rw [same] at numbered
    exact Nat.lt_irrefl _ numbered

-- Words that overlap and run backwards, an empty one among them, and a transform by which they outgrow
-- their slots.
def tangled : Document :=
  (empty ⟨1⟩).addInPlace
    (.ofTokens [.spanning "béc" (.clamped 5 4), .spanning "a" (.clamped 2 2), .spanning "ghost" (.clamped 3 0),
      .spanning "dd" (.clamped 3 3)])

theorem tangled_copied : tangled.text = "   béc a  dd "
    ∧ (tangled.copyWith ⟨2⟩ ("é" ++ ·)).text = "   éb  é éd"
    ∧ (tangled.copyWith ⟨2⟩ ("é" ++ ·)).text.utf8ByteSize = tangled.text.utf8ByteSize
    ∧ ∃ w, Desk.Run [] w ∧ w.Step (w.withCopy tangled ("é" ++ ·))
      ∧ (w.withCopy tangled ("é" ++ ·)).documents = [tangled.copyWith ⟨2⟩ ("é" ++ ·), tangled] := by
  obtain ⟨copies, _, _, beside⟩ := copies_exact tangled ("é" ++ ·)
  let w : Desk := ⟨⟨2, 1⟩, [tangled], []⟩
  have opened : Desk.Run [] ⟨⟨2, 1⟩, [empty ⟨1⟩], []⟩ := .step (.start .initial) (.opened .fresh)
  have run : Desk.Run [] w := .step opened (.changed (.refl _) (.addInPlace _))
  have held : tangled ∈ w.documents := List.mem_singleton.mpr rfl
  exact ⟨by decide, by decide, (copies ⟨2⟩).size, w, run, (beside [] w run held).1, rfl⟩

end Document

end Marginalia
