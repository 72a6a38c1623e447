import Marginalia.Proofs.Assembly
import Marginalia.Proofs.Covers

namespace Marginalia

-- An edit that leaves the range of a token alone, as the operations on text and attachments do. A token can
-- as well be put in place of another one, and then it brings its own range.
def Token.Still (edit : Token → Token) : Prop := ∀ t, (edit t).span = t.span

theorem Token.own_edits_still (text key : String) (value : Attachment) :
    Still (·.withText text) ∧ Still (·.attach key value) ∧ Still (·.detach key) :=
  ⟨fun _ => rfl, fun _ => rfl, fun _ => rfl⟩

section View

variable {β : Type} (edit : Token → Token) (view : Token → β) (still : ∀ t, view (edit t) = view t)

include still

theorem Token.modify_view (tokens : List Token) (index : Nat) :
    (tokens.modify index edit).map view = tokens.map view := by
  induction tokens generalizing index with
  | nil => simp
  | cons t rest ih => cases index <;> simp [still, ih]

-- What an edit keeps of every token is kept of the whole tree.
theorem Document.editSentences_view (index : Nat) (sentences : List Sentence) :
    (editSentences edit index sentences).map (fun s => (s.span, s.tokens.map view))
      = sentences.map fun s => (s.span, s.tokens.map view) := by
  induction sentences generalizing index with
  | nil => rfl
  | cons s rest ih =>
    unfold editSentences
    split
    · simp only [List.map_cons, Token.modify_view edit view still]
    · simp only [List.map_cons, ih]

end View

namespace Sentence

-- What the operations on sentences can make, in any order and number, with these edits of tokens.
inductive Built (edits : (Token → Token) → Prop) : Sentence → Prop where
  | empty : Built edits .empty
  | ofTokens (tokens : List Token) : Built edits (.ofTokens tokens)
  | spanning (span : Span) : Built edits (.spanning span)
  | add {s : Sentence} (built : Built edits s) (t : Token) : Built edits (s.add t)
  | movedTo {s moved : Sentence} {start : Nat} (built : Built edits s)
      (made : s.movedTo? start = some moved) : Built edits moved
  | shifted {s : Sentence} (built : Built edits s) (delta : Nat) : Built edits (s.shifted delta)
  | mapText {s : Sentence} (built : Built edits s) (transform : String → String) :
      Built edits (s.mapText transform)
  | edited {s : Sentence} (built : Built edits s) (index : Nat) {edit : Token → Token} (allowed : edits edit) :
      Built edits { s with tokens := s.tokens.modify index edit }

theorem Built.covered {edits : (Token → Token) → Prop} (still : ∀ edit, edits edit → Token.Still edit)
    {s : Sentence} (built : s.Built edits) : s.Covered := by
  induction built with
  | empty => exact covered_of_none rfl
  | ofTokens tokens => exact ofTokens_covered tokens
  | spanning span => exact covered_of_none rfl
  | add _ t ih => exact add_covered ih t
  | movedTo _ made ih =>
    obtain ⟨_, rfl⟩ := movedTo?_exact.mp made
    exact movedTo_covered ih _
  | shifted _ delta ih => exact shifted_covered ih delta
  | mapText _ transform ih => exact covered_of_ranges ih rfl (mapText_ranges transform _)
  | edited _ index allowed ih =>
    exact covered_of_ranges ih rfl (Token.modify_view _ Token.span (still _ allowed) _ index)

end Sentence

namespace Document

-- The range of a document is the exact cover of the ranges of its sentences, where there are any.
structure Framed (d : Document) : Prop where
  whole : d.sentences ≠ [] → d.span.IsCover (d.sentences.map Sentence.span)
  bare : d.sentences = [] → d.span = .origin

-- Every range above a token is the exact cover of the ranges below it, where there are any.
structure Derived (d : Document) : Prop extends Framed d where
  sentences : ∀ s ∈ d.sentences, s.Covered

-- The ranges of a document without its texts.
def shape (d : Document) : List (Span × List Span) :=
  d.sentences.map fun s => (s.span, s.tokens.map Token.span)

theorem shape_spans (d : Document) : d.shape.map Prod.fst = d.sentences.map Sentence.span := by
  simp [shape, Function.comp_def]

theorem shape_ranges (d : Document) : d.shape.flatMap Prod.snd = d.tokens.map Token.span := by
  simp [shape, tokens, List.flatMap_map, List.map_flatMap]

theorem mem_shape {d e : Document} (shape : e.shape = d.shape) {s : Sentence} (member : s ∈ e.sentences) :
    ∃ old ∈ d.sentences, old.span = s.span ∧ old.tokens.map Token.span = s.tokens.map Token.span := by
  have listed : (s.span, s.tokens.map Token.span) ∈ d.shape :=
    shape ▸ List.mem_map_of_mem (f := fun s : Sentence => (s.span, s.tokens.map Token.span)) member
  obtain ⟨old, old_in, same⟩ := List.mem_map.mp listed
  exact ⟨old, old_in, Prod.mk.inj same⟩

-- What does not touch the ranges cannot disturb them.
theorem Framed.of_spans {d e : Document} (framed : d.Framed) (span : e.span = d.span)
    (spans : e.sentences.map Sentence.span = d.sentences.map Sentence.span) : e.Framed := by
  have same_bare : e.sentences = [] ↔ d.sentences = [] := by
    rw [← List.map_eq_nil_iff (f := Sentence.span), spans, List.map_eq_nil_iff]
  refine ⟨?_, ?_⟩
  · intro filled
    rw [span, spans]
    exact framed.whole (mt same_bare.mpr filled)
  · intro bare
    rw [span]
    exact framed.bare (same_bare.mp bare)

theorem covered_of_shape {d e : Document} (covered : ∀ s ∈ d.sentences, s.Covered) (shape : e.shape = d.shape) :
    ∀ s ∈ e.sentences, s.Covered := by
  intro s member
  obtain ⟨old, old_in, same_span, same_ranges⟩ := mem_shape shape member
  exact Sentence.covered_of_ranges (covered old old_in) same_span.symm same_ranges.symm

theorem Derived.of_shape {d e : Document} (derived : d.Derived) (span : e.span = d.span)
    (shape : e.shape = d.shape) : e.Derived := by
  have spans : e.sentences.map Sentence.span = d.sentences.map Sentence.span := by
    rw [← shape_spans, shape, shape_spans]
  exact ⟨derived.toFramed.of_spans span spans, covered_of_shape derived.sentences shape⟩

theorem framed_of_none {d : Document} (bare : d.sentences = []) (span : d.span = .origin) : d.Framed :=
  ⟨fun filled => absurd bare filled, fun _ => span⟩

theorem empty_derived (handle : Handle) : (empty handle).Derived :=
  ⟨framed_of_none rfl rfl, by simp [empty]⟩

theorem cleared_derived (d : Document) : d.cleared.Derived :=
  ⟨framed_of_none rfl rfl, by simp [cleared]⟩

theorem mem_pushed {s added : Sentence} {before : List Sentence} (member : s ∈ before ++ [added]) :
    s ∈ before ∨ s = added := by simpa using member

theorem pushed_covered {before : List Sentence} {added : Sentence} (covered : ∀ s ∈ before, s.Covered)
    (also : added.Covered) : ∀ s ∈ before ++ [added], s.Covered := by
  intro s member
  rcases mem_pushed member with old | rfl
  · exact covered s old
  · exact also

theorem addInPlace_framed {d : Document} (framed : d.Framed) (s : Sentence) : (d.addInPlace s).Framed := by
  refine ⟨?_, ?_⟩
  · intro _
    by_cases bare : d.sentences = []
    · simpa [addInPlace, bare] using Span.isCover_single s.span
    · simpa [addInPlace, bare] using (framed.whole bare).join (Span.isCover_single s.span)
  · intro bare
    simp at bare

theorem foldl_addInPlace_framed {d : Document} (framed : d.Framed) (added : List Sentence) :
    (added.foldl addInPlace d).Framed := by
  induction added generalizing d with
  | nil => exact framed
  | cons s rest ih => exact ih (addInPlace_framed framed s)

theorem addInPlace_derived {d : Document} (derived : d.Derived) {s : Sentence} (covered : s.Covered) :
    (d.addInPlace s).Derived :=
  ⟨addInPlace_framed derived.toFramed s, pushed_covered derived.sentences covered⟩

-- The moved sentence starts behind the end, so the range that reaches its stop is the one that
-- covers it. Without sentences this takes a range that is reset.
theorem addAtEnd_inPlace {d : Document} (bare : d.sentences = [] → d.span = .origin) (s : Sentence) :
    d.addAtEnd s = d.addInPlace (s.movedTo d.landing) := by
  have ordered := d.span.ordered
  have bounded := d.span.bounded
  by_cases first : d.sentences = []
  · have reset := bare first
    have same : Span.clamped 0 (s.movedTo 0).stop = (s.movedTo 0).span := by
      apply Span.same_ends
      · simp only [Sentence.movedTo, Span.movedTo, Span.clamped]
      · simp only [Sentence.movedTo, Sentence.stop, Span.movedTo, Span.clamped]
        omega
    simp only [addAtEnd, addInPlace, landing, first, stop, reset, Span.origin, List.isEmpty_nil,
      if_true, Nat.sub_zero, same]
  · have same : Span.clamped d.start ((s.movedTo (d.stop + 1)).stop - d.start)
        = d.span.cover (s.movedTo (d.stop + 1)).span := by
      apply Span.same_ends <;>
        simp only [Sentence.movedTo, Sentence.stop, Span.movedTo, Span.clamped, Span.cover, start,
          stop] <;> omega
    have some_there : d.sentences.isEmpty = false := by simpa using first
    simp only [addAtEnd, addInPlace, landing, some_there, Bool.false_eq_true, if_false, same]

theorem addAtEnd_framed {d : Document} (framed : d.Framed) (s : Sentence) : (d.addAtEnd s).Framed := by
  rw [addAtEnd_inPlace framed.bare]
  exact addInPlace_framed framed _

theorem append_framed {d : Document} (framed : d.Framed) (other : Document) : (d.append other).Framed :=
  (foldl_addInPlace_framed framed (other.sentences.map (Sentence.shifted · d.joint))).of_spans rfl rfl

theorem append_covered {d other : Document} (covered : ∀ s ∈ d.sentences, s.Covered)
    (added : ∀ s ∈ other.sentences, s.Covered) : ∀ s ∈ (d.append other).sentences, s.Covered := by
  intro s member
  rw [append_sentences] at member
  rcases List.mem_append.mp member with old | new
  · exact covered s old
  · obtain ⟨moved, moved_in, rfl⟩ := List.mem_map.mp new
    exact Sentence.shifted_covered (added moved moved_in) d.joint

theorem append_derived {d other : Document} (derived : d.Derived) (added : other.Derived) :
    (d.append other).Derived :=
  ⟨append_framed derived.toFramed other, append_covered derived.sentences added.sentences⟩

theorem copyWith_shape (d : Document) (handle : Handle) (transform : String → String) :
    (d.copyWith handle transform).shape = d.shape := by
  simp only [shape, copyWith, List.map_map]
  apply List.map_congr_left
  intro s _
  exact congrArg (Prod.mk s.span) (Sentence.mapText_ranges transform s)

theorem editToken_shape (d : Document) (index : Nat) {edit : Token → Token} (still : Token.Still edit) :
    (d.editToken index edit).shape = d.shape :=
  editSentences_view edit Token.span still index d.sentences

-- No edit of a token reaches the range of a sentence, whatever range it gives the token.
theorem editToken_spans (d : Document) (index : Nat) (edit : Token → Token) :
    (d.editToken index edit).sentences.map Sentence.span = d.sentences.map Sentence.span := by
  have kept := congrArg (List.map Prod.fst) (editSentences_view edit (fun _ => ()) (fun _ => rfl) index d.sentences)
  rw [List.map_map, List.map_map] at kept
  exact kept

end Document

namespace Splitter

theorem gathered_derived {sentences : List Sentence} (covered : ∀ s ∈ sentences, s.Covered)
    (handle : Handle) : (gathered sentences handle).Derived := by
  refine ⟨Document.foldl_addInPlace_framed (Document.empty_derived handle).toFramed sentences, ?_⟩
  rw [gathered_sentences]
  exact covered

theorem extend_framed (splitter : Splitter) (text : String) {d : Document} (framed : d.Framed) (supply : Supply) :
    (splitter.extend text d supply).1.2.Framed := by
  cases cut : splitter.sentences text with
  | error fault =>
    rw [splitter.extend_refused cut]
    exact framed
  | ok sentences =>
    rw [splitter.extend_accepted cut]
    exact Document.append_framed framed _

-- Accepted or refused, and whatever was cut.
theorem extend_covered (splitter : Splitter) (text : String) {d : Document} (held : ∀ s ∈ d.sentences, s.Covered)
    (covered : ∀ sentences, splitter.sentences text = .ok sentences → ∀ s ∈ sentences, s.Covered)
    (supply : Supply) : ∀ s ∈ (splitter.extend text d supply).1.2.sentences, s.Covered := by
  cases cut : splitter.sentences text with
  | error fault =>
    rw [splitter.extend_refused cut]
    exact held
  | ok sentences =>
    rw [splitter.extend_accepted cut]
    apply Document.append_covered held
    rw [gathered_sentences]
    exact covered sentences cut

end Splitter

namespace Document

-- What a run of operations comes to, in any order and number. A document to append comes from a run of its
-- own, and a splitter cuts whatever sentences can be built. Where an operation stops, the run comes to nothing.
inductive Produced (edits : (Token → Token) → Prop) : Document → Prop where
  | new (handle : Handle) : Produced edits (.empty handle)
  | addAtEnd {d e : Document} {s : Sentence} (run : Produced edits d) (built : s.Built edits)
      (made : d.addAtEnd? s = some e) : Produced edits e
  | addInPlace {d : Document} {s : Sentence} (run : Produced edits d) (built : s.Built edits) :
      Produced edits (d.addInPlace s)
  | append {d e other : Document} (run : Produced edits d) (added : Produced edits other)
      (made : d.append? other = some e) : Produced edits e
  | copyWith {d : Document} (run : Produced edits d) (handle : Handle) (transform : String → String) :
      Produced edits (d.copyWith handle transform)
  | extended {d : Document} (run : Produced edits d) (splitter : Splitter) (text : String) (supply : Supply)
      (built : ∀ sentences, splitter.sentences text = .ok sentences → ∀ s ∈ sentences, s.Built edits)
      {outcome : Except Fault Unit × Document} (made : (splitter.extend? text d supply).1 = some outcome) :
      Produced edits outcome.2
  | replaced {d : Document} (run : Produced edits d) (splitter : Splitter) (text : String) (supply : Supply)
      (built : ∀ sentences, splitter.sentences text = .ok sentences → ∀ s ∈ sentences, s.Built edits) :
      Produced edits (splitter.replace text d supply).1.2
  | edited {d : Document} (run : Produced edits d) (index : Nat) {edit : Token → Token} (allowed : edits edit) :
      Produced edits (d.editToken index edit)
  | noted {d : Document} (run : Produced edits d) (n : Note) : Produced edits (d.addNote n)
  | allNoted {d : Document} (run : Produced edits d) (notes : List Note) : Produced edits (d.addNotes notes)
  | notesCleared {d : Document} (run : Produced edits d) (source : Source) (kind : Kind) :
      Produced edits (d.clearNotes source kind)
  | noteRemoved {d : Document} (run : Produced edits d) (id : NoteId) : Produced edits (d.removeNote id).2
  | tagged {d : Document} (run : Produced edits d) (source : Source) (tag : String) (present : Bool) :
      Produced edits (d.setTag source tag present)
  | described {d : Document} (run : Produced edits d) (metadata : Metadata) : Produced edits { d with metadata }
  | reloaded {d : Document} (run : Produced edits d) (handle : Handle) : Produced edits (d.record.document handle)

-- What is reached by runs whose edits leave the ranges of tokens alone.
def Reached (d : Document) : Prop := Produced Token.Still d

theorem setTag_tree (d : Document) (source : Source) (tag : String) (present : Bool) :
    (d.setTag source tag present).span = d.span
      ∧ (d.setTag source tag present).sentences = d.sentences := by
  unfold setTag
  split <;> exact ⟨rfl, rfl⟩

variable {edits : (Token → Token) → Prop} {d : Document}

-- Of the sentences only their ranges count here, so an edit may do anything to a token.
theorem Produced.framed (run : Produced edits d) : d.Framed := by
  induction run with
  | new handle => exact (empty_derived handle).toFramed
  | addAtEnd _ _ made ih => exact addAtEnd?_made made ▸ addAtEnd_framed ih _
  | addInPlace _ _ ih => exact addInPlace_framed ih _
  | append _ _ made ih _ => exact append?_made made ▸ append_framed ih _
  | copyWith _ handle transform ih =>
    refine ih.of_spans rfl ?_
    rw [← shape_spans, copyWith_shape, shape_spans]
  | extended _ splitter text supply _ made ih => exact splitter.extend?_made made ▸ splitter.extend_framed text ih supply
  | replaced _ splitter text supply _ _ => exact splitter.extend_framed text (cleared_derived _).toFramed supply
  | edited _ index _ ih => exact ih.of_spans rfl (editToken_spans _ index _)
  | noted _ n ih => exact ih.of_spans rfl rfl
  | allNoted _ notes ih =>
    obtain ⟨span, sentences⟩ := addNotes_tree _ notes
    exact ih.of_spans span (by rw [sentences])
  | notesCleared _ source kind ih => exact ih.of_spans rfl rfl
  | noteRemoved _ id ih => exact ih.of_spans rfl rfl
  | tagged _ source tag present ih =>
    obtain ⟨span, sentences⟩ := setTag_tree _ source tag present
    exact ih.of_spans span (by rw [sentences])
  | described _ metadata ih => exact ih.of_spans rfl rfl
  | reloaded _ handle ih =>
    obtain ⟨span, sentences⟩ := record_document_tree _ handle
    exact ih.of_spans span (by rw [sentences])

theorem Produced.covered (still : ∀ edit, edits edit → Token.Still edit) (run : Produced edits d) :
    ∀ s ∈ d.sentences, s.Covered := by
  induction run with
  | new handle => exact (empty_derived handle).sentences
  | addAtEnd _ built made ih =>
    exact addAtEnd?_made made ▸ pushed_covered ih (Sentence.movedTo_covered (built.covered still) _)
  | addInPlace _ built ih => exact pushed_covered ih (built.covered still)
  | append _ _ made ih added => exact append?_made made ▸ append_covered ih added
  | copyWith _ handle transform ih => exact covered_of_shape ih (copyWith_shape _ handle transform)
  | extended _ splitter text supply built made ih =>
    rw [splitter.extend?_made made]
    exact splitter.extend_covered text ih (fun cut accepted s member => (built cut accepted s member).covered still) supply
  | @replaced d _ splitter text supply built _ =>
    exact splitter.extend_covered text (cleared_derived d).sentences
      (fun cut accepted s member => (built cut accepted s member).covered still) supply
  | edited _ index allowed ih => exact covered_of_shape ih (editToken_shape _ index (still _ allowed))
  | noted _ n ih => exact ih
  | allNoted _ notes ih =>
    rw [(addNotes_tree _ notes).2]
    exact ih
  | notesCleared _ source kind ih => exact ih
  | noteRemoved _ id ih => exact ih
  | tagged _ source tag present ih =>
    rw [(setTag_tree _ source tag present).2]
    exact ih
  | described _ metadata ih => exact ih
  | reloaded _ handle ih =>
    rw [(record_document_tree _ handle).2]
    exact ih

theorem Reached.derived (reached : d.Reached) : d.Derived :=
  ⟨Produced.framed reached, Produced.covered (fun _ still => still) reached⟩

-- Edits of tokens cannot disturb the range of a document. Those of its sentences are exact as well, if no edit
-- gives a token another range.
theorem produced_ranges_exact (run : Produced edits d) :
    (d.sentences ≠ [] → d.span.IsCover (d.sentences.map Sentence.span))
      ∧ (d.sentences = [] → d.span = .origin)
      ∧ ((∀ edit, edits edit → Token.Still edit) →
        ∀ s ∈ d.sentences, s.tokens ≠ [] → s.span.IsCover (s.tokens.map Token.span)) :=
  ⟨run.framed.whole, run.framed.bare, fun still s member => Sentence.covered_exact.mp (run.covered still s member)⟩

-- Tokens out of order, an empty one among them and one with a new text, and behind them a sentence that holds none.
def crookedLine : Sentence :=
  .ofTokens [.spanning "b" (.clamped 5 3), .spanning "a" (.clamped 2 1), .spanning "" (.emptyAt 9)]

def crooked : Document :=
  (((empty ⟨1⟩).addInPlace crookedLine).editToken 1 (·.withText "é")).addAtEnd (.spanning (.clamped 4 6))

theorem crooked_ranges_exact : crooked.Reached ∧ crooked.span = .clamped 2 14
    ∧ crooked.span.IsCover (crooked.sentences.map Sentence.span)
    ∧ ∀ s ∈ crooked.sentences, s.tokens ≠ [] → s.span.IsCover (s.tokens.map Token.span) := by
  have line : (((empty ⟨1⟩).addInPlace crookedLine).editToken 1 (·.withText "é")).Reached :=
    .edited (.addInPlace (.new _) (.ofTokens _)) 1 (Token.own_edits_still "é" "" (.tag "")).1
  have reached : crooked.Reached := .addAtEnd line (.spanning (.clamped 4 6)) rfl
  obtain ⟨whole, _, sentences⟩ := produced_ranges_exact reached
  exact ⟨reached, by decide, whole (by decide), sentences fun _ still => still⟩

-- Another token in place of the only one leaves the sentence where it was.
def replacedWord : Document :=
  ((empty ⟨1⟩).addInPlace (.ofTokens [.starting "ab" 0])).editToken 0 fun _ => .starting "xyz" 100

theorem replacedWord_not_covered : Produced (fun _ => True) replacedWord
    ∧ ∃ s ∈ replacedWord.sentences, s.span = .clamped 0 2 ∧ s.tokens = [.starting "xyz" 100]
      ∧ ¬ s.span.IsCover (s.tokens.map Token.span) := by
  refine ⟨.edited (.addInPlace (.new _) (.ofTokens _)) 0 trivial, _, List.mem_cons_self .., ?_⟩
  decide

end Document

end Marginalia
