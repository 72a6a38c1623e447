import Marginalia.Proofs.WellLaid
import Marginalia.Proofs.Windows

namespace Marginalia

-- What a test takes from a list is an unbroken run if it takes whatever lies between two things
-- it takes.
theorem filter_run {α : Type} {p : α → Bool} {R : α → α → Prop} {items : List α}
    (chained : items.Pairwise R) (between : ∀ a b c, R a b → R b c → p a = true → p c = true → p b = true) :
    ∃ before after, items = before ++ (items.filter p ++ after)
      ∧ (∀ x ∈ before, p x = false) ∧ ∀ x ∈ after, p x = false := by
  induction items with
  | nil => exact ⟨[], [], rfl, by simp, by simp⟩
  | cons x rest ih =>
    obtain ⟨first, tail⟩ := List.pairwise_cons.mp chained
    obtain ⟨before, after, parts, none_before, none_after⟩ := ih tail
    cases taken : p x with
    | false =>
      refine ⟨x :: before, after, ?_, ?_, none_after⟩
      · rw [List.filter_cons_of_neg (by simp [taken]), List.cons_append, ← parts]
      · simpa [taken] using none_before
    | true =>
      cases before with
      | nil =>
        refine ⟨[], after, ?_, by simp, none_after⟩
        rw [List.filter_cons_of_pos taken, List.nil_append, List.cons_append]
        exact congrArg (x :: ·) parts
      | cons y skipped =>
        -- The test leaves out `y`, so nothing behind `y` can be taken either.
        have y_out := none_before y (by simp)
        have none_behind : rest.filter p = [] := by
          refine List.filter_eq_nil_iff.mpr fun z listed z_taken => ?_
          rw [parts, List.cons_append] at listed
          rcases List.mem_cons.mp listed with rfl | later
          · rw [y_out] at z_taken
            cases z_taken
          · have y_first := first y (by rw [parts]; simp)
            rw [parts, List.cons_append] at tail
            have y_z := (List.pairwise_cons.mp tail).1 z later
            rw [between x y z y_first y_z taken z_taken] at y_out
            cases y_out
        refine ⟨[], rest, ?_, by simp, ?_⟩
        · rw [List.filter_cons_of_pos taken, none_behind, List.nil_append, List.singleton_append]
        · intro z listed
          simpa using List.filter_eq_nil_iff.mp none_behind z listed

namespace Document

theorem WellLaid.sentence_cover {d : Document} (laid : d.WellLaid) {s : Sentence} (member : s ∈ d.sentences) :
    s.span.IsCover (s.tokens.map Token.span) :=
  Sentence.covered_exact.mp (laid.sentences s member) (laid.held s member)

theorem WellLaid.sentence_filled {d : Document} (laid : d.WellLaid) {s : Sentence}
    (member : s ∈ d.sentences) : s.start < s.stop := by
  obtain ⟨t, inside, _⟩ := (laid.sentence_cover member).first_token
  have bounds := covered_bounds (laid.sentences s member) inside
  have filled := laid.filled t (List.mem_flatMap.mpr ⟨s, member, inside⟩)
  omega

theorem WellLaid.sentences_ordered {d : Document} (laid : d.WellLaid) :
    d.sentences.Pairwise fun a b => a.stop ≤ b.start := by
  have chained := (List.pairwise_flatMap.mp (Token.chain_pairwise.mp laid.ordered)).2
  refine chained.imp_of_mem ?_
  intro a b a_in b_in before
  obtain ⟨last, last_in, stops⟩ := (laid.sentence_cover a_in).last_token
  obtain ⟨first, first_in, starts⟩ := (laid.sentence_cover b_in).first_token
  have gap := before last last_in first first_in
  simp only [Token.Before, Sentence.stop, Sentence.start] at *
  omega

theorem WellLaid.sentences_along {d : Document} (laid : d.WellLaid) :
    d.sentences.Pairwise Sentence.Along := by
  refine laid.sentences_ordered.imp_of_mem ?_
  intro a b a_in b_in gap
  have a_filled := laid.sentence_filled a_in
  have b_filled := laid.sentence_filled b_in
  exact ⟨by omega, by omega⟩

-- No window skips a sentence between two that it takes.
theorem WellLaid.window_run {d : Document} (laid : d.WellLaid) (window : Span) :
    ∃ before after, d.sentences = before ++ (d.sentencesIn window.window .overlapping ++ after)
      ∧ (∀ x ∈ before, Policy.overlapping.selects window.window x.span = false)
      ∧ ∀ x ∈ after, Policy.overlapping.selects window.window x.span = false := by
  have filled : d.sentences.Pairwise fun a b => a.stop ≤ b.start ∧ a.start < a.stop ∧ b.start < b.stop :=
    laid.sentences_ordered.imp_of_mem fun a_in b_in gap =>
      ⟨gap, laid.sentence_filled a_in, laid.sentence_filled b_in⟩
  apply filter_run filled
  rintro a b c ⟨a_b, a_filled, b_filled⟩ ⟨b_c, _, c_filled⟩ a_taken c_taken
  have ordered := window.ordered
  rcases Nat.lt_or_eq_of_le ordered with wide | point
  · rw [Policy.overlapping_wide wide b_filled]
    rw [Policy.overlapping_wide wide a_filled] at a_taken
    rw [Policy.overlapping_wide wide c_filled] at c_taken
    simp only [Span.window, Sentence.start, Sentence.stop] at *
    omega
  · rw [Policy.overlapping_point point b_filled]
    rw [Policy.overlapping_point point a_filled] at a_taken
    rw [Policy.overlapping_point point c_filled] at c_taken
    simp only [Span.window, Sentence.start, Sentence.stop] at *
    omega

end Document

namespace Snippet

open Text

theorem ends_same (window other : Span) {shown : List Sentence} (held : shown ≠ []) :
    ends window shown = ends other shown := by
  obtain ⟨first, first_there, last, last_there, same⟩ := ends_held window held
  rw [same, ends, first_there, last_there]

-- What a window over a well laid document shows: an unbroken run of its sentences; the range
-- from the first one's start to the last one's stop; the very text the document has there; and
-- the same again through the window that is this range.
structure Excerpt (d : Document) (w : Window) (s : Snippet) : Prop where
  run : ∃ before after, d.sentences = before ++ (s.sentences ++ after)
    ∧ s.indices = List.range' before.length s.sentences.length
  chosen : s.sentences = d.sentencesIn w .overlapping
  starts : ∃ first ∈ s.sentences.head?, s.span.start = first.start
  stops : ∃ last ∈ s.sentences.getLast?, s.span.stop = last.stop
  text : d.textAt s.span = .ok s.text
  again : ofRange d s.span.start s.span.length = .ok s

-- A note seen through a snippet says the same of its text as of the document's, offsets
-- counted from the snippet's start, and is refused where it would cut a character there.
def Quotes (d : Document) (s : Snippet) (n : Note) : Prop :=
  (∀ text, d.textOf n = .ok text ↔
    slice (n.start - s.span.start) (n.stop - s.span.start) s.text.toList = some text.toList)
  ∧ ((∃ fault, d.textOf n = .error fault) ↔
    ¬ (Boundary (n.start - s.span.start) s.text.toList ∧ Boundary (n.stop - s.span.start) s.text.toList))

end Snippet

namespace Document

open Text

-- In a range whose text is known, ranges inside it are slices of that text.
theorem textAt_inside {d : Document} {outer inner : Span} {whole : String}
    (found : d.textAt outer = .ok whole) (within : outer.encloses inner = true) (text : String) :
    d.textAt inner = .ok text ↔
      slice (inner.start - outer.start) (inner.stop - outer.start) whole.toList = some text.toList := by
  obtain ⟨starts, stops, sliced⟩ := textAt_exact.mp found
  obtain ⟨before, after, parts, start_size, size⟩ := slice_exact.mp sliced
  obtain ⟨from_start, to_stop⟩ := Span.encloses_exact.mp within
  have ordered := inner.ordered
  have same : slice (inner.start - d.start) (inner.stop - d.start) d.chars
      = slice (inner.start - outer.start) (inner.stop - outer.start) whole.toList := by
    have part : slice (bytes before + (inner.start - outer.start))
        (bytes before + (inner.stop - outer.start)) (before ++ (whole.toList ++ after))
        = slice (inner.start - outer.start) (inner.stop - outer.start) whole.toList :=
      slice_part before after (by omega) (by omega)
    rw [← part, parts]
    congr 1 <;> omega
  rw [textAt_exact, same]
  constructor
  · exact fun ⟨_, _, piece⟩ => piece
  · exact fun piece => ⟨by omega, by omega, piece⟩

theorem quotes_of_text {d : Document} {s : Snippet} (text : d.textAt s.span = .ok s.text) {n : Note}
    (within : s.span.encloses n.span = true) : s.Quotes d n := by
  have read := textAt_inside text within
  refine ⟨read, ?_⟩
  have ordered := n.span.ordered
  rw [← slice_some (by simp only [Note.start, Note.stop]; omega)]
  constructor
  · rintro ⟨fault, refused⟩ ⟨piece, sliced⟩
    have accepted := (read (String.ofList piece)).mpr (by rw [String.toList_ofList]; exact sliced)
    rw [textOf, accepted] at refused
    cases refused
  · intro cut
    cases outcome : d.textOf n with
    | error fault => exact ⟨fault, rfl⟩
    | ok piece => exact absurd ⟨_, (read piece).mp outcome⟩ cut

-- The text of an unbroken run of sentences stands at the range that they cover.
theorem WellLaid.textAt_run {d : Document} (laid : d.WellLaid) {before run after : List Sentence}
    (parts : d.sentences = before ++ (run ++ after)) {span : Span}
    (covers : span.IsCover (run.map Sentence.span)) :
    d.textAt span = .ok (Layout.text span.start (run.flatMap Sentence.tokens)) := by
  have each : ∀ g ∈ run.map (fun s => (s.span, s.tokens.map Token.span)), g.1.IsCover g.2 := by
    intro g listed
    obtain ⟨s, held, rfl⟩ := List.mem_map.mp listed
    exact laid.sentence_cover (by simp [parts, held])
  have token_cover : span.IsCover ((run.flatMap Sentence.tokens).map Token.span) := by
    have spans : span.IsCover ((run.map fun s => (s.span, s.tokens.map Token.span)).map Prod.fst) := by
      simpa [Function.comp_def] using covers
    simpa [List.flatMap_map, List.map_flatMap] using spans.through each
  exact laid.textAt_block (before.flatMap Sentence.tokens) _ (after.flatMap Sentence.tokens)
    (by simp [tokens, parts]) token_cover

end Document

namespace Snippet

-- An unbroken run is found at consecutive indices.
theorem hits_run {d : Document} {w : Window} {before run after : List Sentence}
    (parts : d.sentences = before ++ (run ++ after))
    (none_before : ∀ x ∈ before, Policy.overlapping.selects w x.span = false)
    (all_run : ∀ x ∈ run, Policy.overlapping.selects w x.span = true)
    (none_after : ∀ x ∈ after, Policy.overlapping.selects w x.span = false) :
    hits d w = run.zipIdx before.length := by
  have left_out : ∀ (part : List Sentence) (place : Nat),
      (∀ x ∈ part, Policy.overlapping.selects w x.span = false) →
        (part.zipIdx place).filter (fun item => Policy.overlapping.selects w item.1.span) = [] := by
    intro part place none_there
    refine List.filter_eq_nil_iff.mpr fun item listed => ?_
    simp [none_there item.1 (List.fst_mem_of_mem_zipIdx listed)]
  have taken : (run.zipIdx before.length).filter (fun item => Policy.overlapping.selects w item.1.span)
      = run.zipIdx before.length :=
    List.filter_eq_self.mpr fun item listed => all_run item.1 (List.fst_mem_of_mem_zipIdx listed)
  rw [hits, parts, List.zipIdx_append, List.zipIdx_append, List.filter_append, List.filter_append,
    left_out _ _ none_before, left_out _ _ none_after, Nat.zero_add, taken, List.nil_append,
    List.append_nil]

-- Two windows that take the same sentences show the same, if they take any.
theorem ofWindow_same {d : Document} {window other : Span}
    (same : ∀ x ∈ d.sentences, Policy.overlapping.selects window.window x.span
      = Policy.overlapping.selects other.window x.span)
    (held : (ofWindow d window).sentences ≠ []) : ofWindow d window = ofWindow d other := by
  have same_hits : hits d window.window = hits d other.window :=
    List.filter_congr fun item listed => same item.1 (List.fst_mem_of_mem_zipIdx listed)
  have same_shown : d.sentencesIn window.window .overlapping = d.sentencesIn other.window .overlapping := by
    rw [← hits_sentences, same_hits, hits_sentences]
  rw [ofWindow_sentences] at held
  rw [ofWindow, ofWindow, same_hits, ends_same window other held, same_shown]

end Snippet

namespace Document

open Snippet

theorem WellLaid.window_cover {d : Document} (laid : d.WellLaid) {window : Span}
    (held : (ofWindow d window).sentences ≠ []) :
    (ofWindow d window).span.IsCover ((ofWindow d window).sentences.map Sentence.span) := by
  have inside := ofWindow_inside window laid.sentences_along
  rw [ofWindow_span] at inside ⊢
  exact (ends_cover held).mpr inside

-- The range of what a window shows takes, as a window, the same sentences again.
theorem WellLaid.selects_again {d : Document} (laid : d.WellLaid) {window : Span}
    (held : (ofWindow d window).sentences ≠ []) {x : Sentence} (member : x ∈ d.sentences) :
    Policy.overlapping.selects (ofWindow d window).span.window x.span
      = Policy.overlapping.selects window.window x.span := by
  obtain ⟨before, after, parts, none_before, none_after⟩ := laid.window_run window
  have covers := laid.window_cover held
  have ordered := laid.sentences_ordered
  rw [parts] at ordered
  obtain ⟨_, behind, ahead⟩ := List.pairwise_append.mp ordered
  rw [← ofWindow_sentences] at parts behind ahead
  have in_document : ∀ y ∈ (ofWindow d window).sentences, y ∈ d.sentences := fun y shown => by
    rw [parts]
    simp [shown]
  obtain ⟨⟨_, first_listed, starts⟩, ⟨_, last_listed, stops⟩, bounds⟩ := Span.isCover_exact.mp covers
  obtain ⟨first, first_in, rfl⟩ := List.mem_map.mp first_listed
  obtain ⟨last, last_in, rfl⟩ := List.mem_map.mp last_listed
  have first_filled := laid.sentence_filled (in_document first first_in)
  have first_bounds := bounds first.span first_listed
  have filled := laid.sentence_filled member
  have wide : (ofWindow d window).span.window.start < (ofWindow d window).span.window.stop := by
    simp only [Span.window, Sentence.start, Sentence.stop] at *
    omega
  have again := Policy.overlapping_wide wide filled
  rw [parts] at member
  rcases List.mem_append.mp member with early | later
  · have gap := ahead x early first (by simp [first_in])
    rw [none_before x early, ← Bool.not_eq_true, again]
    simp only [Span.window, Sentence.start, Sentence.stop] at *
    omega
  · rcases List.mem_append.mp later with here | late
    · have inside := bounds x.span (List.mem_map_of_mem here)
      have taken : Policy.overlapping.selects window.window x.span = true := by
        rw [ofWindow_sentences] at here
        exact (List.mem_filter.mp here).2
      rw [taken, again]
      simp only [Span.window, Sentence.start, Sentence.stop] at *
      omega
    · have gap := (List.pairwise_append.mp behind).2.2 last last_in x late
      rw [none_after x late, ← Bool.not_eq_true, again]
      simp only [Span.window, Sentence.start, Sentence.stop] at *
      omega

theorem WellLaid.excerpt {d : Document} (laid : d.WellLaid) {window : Span}
    (held : (ofWindow d window).sentences ≠ []) : (ofWindow d window).Excerpt d window.window := by
  obtain ⟨before, after, parts, none_before, none_after⟩ := laid.window_run window
  have covers := laid.window_cover held
  have along := shown_along window laid.sentences_along
  obtain ⟨first, first_there, last, last_there, _⟩ := ends_held window held
  obtain ⟨⟨_, opening_listed, opens⟩, ⟨_, closing_listed, closes⟩, bounds⟩ := Span.isCover_exact.mp covers
  have indices : (ofWindow d window).indices
      = List.range' before.length (ofWindow d window).sentences.length := by
    rw [ofWindow_sentences, ← List.zipIdx_map_snd]
    exact congrArg _ (hits_run parts none_before (fun x taken => (List.mem_filter.mp taken).2) none_after)
  rw [← ofWindow_sentences] at parts
  refine ⟨⟨before, after, parts, indices⟩, ofWindow_sentences d window, ⟨first, first_there, ?_⟩,
    ⟨last, last_there, ?_⟩, laid.textAt_run parts covers, ?_⟩
  · obtain ⟨opening, opening_in, rfl⟩ := List.mem_map.mp opening_listed
    have least := along_first along first_there opening_in
    have inside := bounds first.span (List.mem_map_of_mem (List.mem_of_mem_head? first_there))
    simp only [Sentence.start] at *
    omega
  · obtain ⟨closing, closing_in, rfl⟩ := List.mem_map.mp closing_listed
    have greatest := along_last along last_there closing_in
    have inside := bounds last.span (List.mem_map_of_mem (List.mem_of_mem_getLast? last_there))
    simp only [Sentence.stop] at *
    omega
  · rw [ofRange_made]
    exact congrArg _ (ofWindow_same (fun x member => (laid.selects_again held member).symm) held).symm

-- The range of the whole document takes all of it.
theorem WellLaid.whole_window {d : Document} (laid : d.WellLaid) (filled : d.sentences ≠ []) :
    (ofWindow d d.span).sentences = d.sentences ∧ (ofWindow d d.span).span = d.span := by
  have all_shown : (ofWindow d d.span).sentences = d.sentences := by
    rw [ofWindow_sentences]
    refine List.filter_eq_self.mpr fun x member => ?_
    have inside := laid.sentence_bounds member
    have x_filled := laid.sentence_filled member
    simp only [Sentence.start, Sentence.stop, start, stop] at *
    have wide : d.span.window.start < d.span.window.stop := by
      simp only [Span.window]
      omega
    refine (Policy.overlapping_wide wide x_filled).mpr ?_
    simp only [Span.window]
    omega
  refine ⟨all_shown, ?_⟩
  have covers := laid.window_cover (by rw [all_shown]; exact filled)
  rw [all_shown] at covers
  exact covers.unique (laid.whole filled)

end Document

namespace Snippet

theorem wellLaid_excerpts {d : Document} (laid : d.WellLaid) (start length : Nat)
    (fits : start + length ≤ maxOffset) : ∃ s, ofRange d start length = .ok s
      ∧ ((∃ x ∈ d.sentences, Policy.overlapping.selects ⟨start, start + length⟩ x.span = true) →
        s.Excerpt d ⟨start, start + length⟩ ∧ ∀ n ∈ s.notes, s.Quotes d n)
      ∧ ((∀ x ∈ d.sentences, Policy.overlapping.selects ⟨start, start + length⟩ x.span = false) →
        s.indices = [] ∧ s.sentences = [] ∧ s.span.start = start ∧ s.span.stop = start + length
          ∧ s.text = "")
      ∧ (d.sentences ≠ [] → ∃ whole, ofRange d d.start d.span.length = .ok whole ∧ whole.text = d.text) := by
  let window : Span := ⟨start, start + length, Nat.le_add_right _ _, fits⟩
  have made := ofRange_made d window
  rw [show window.length = length from Nat.add_sub_cancel_left ..] at made
  refine ⟨ofWindow d window, made, ?_, ?_, ?_⟩
  · rintro ⟨x, member, taken⟩
    have held : (ofWindow d window).sentences ≠ [] := by
      rw [ofWindow_sentences]
      exact List.ne_nil_of_mem (List.mem_filter.mpr ⟨member, taken⟩)
    have excerpt := laid.excerpt held
    exact ⟨excerpt, fun n seen => Document.quotes_of_text excerpt.text ((mem_notes rfl).mp seen).2⟩
  · intro none_taken
    have none_hit : hits d window.window = [] :=
      List.filter_eq_nil_iff.mpr fun item listed => by
        have left_out := none_taken item.1 (List.fst_mem_of_mem_zipIdx listed)
        exact Bool.not_eq_true _ ▸ left_out
    have none_shown : d.sentencesIn window.window .overlapping = [] := by
      rw [← hits_sentences, none_hit, List.map_nil]
    have alone : ofWindow d window = ⟨d, [], some window⟩ := by
      rw [ofWindow, none_hit, none_shown]
      rfl
    rw [alone]
    exact ⟨rfl, rfl, rfl, rfl, rfl⟩
  · intro filled
    obtain ⟨all_shown, whole_span⟩ := laid.whole_window filled
    have excerpt := laid.excerpt (by rw [all_shown]; exact filled)
    refine ⟨ofWindow d d.span, ofRange_made d d.span, ?_⟩
    have same := excerpt.text
    rw [whole_span, laid.textAt_whole] at same
    exact (Except.ok.inj same).symm

-- Three lines with gaps between them, one of two bytes for its last letter. One note holds that
-- letter, one cuts it, and one lies on a line that the window does not reach.
def gapped : Document :=
  ((((Document.empty ⟨1⟩).addInPlace
      (.ofTokens [.spanning "doué" (.clamped 4 5), .spanning "x" (.clamped 10 1)])).addInPlace
    (.ofTokens [.spanning "ok" (.clamped 13 2)])).addInPlace
      (.ofTokens [.spanning "fin" (.clamped 16 3)])).addNotes
        [(NoteBody.plain .mention .gold (.clamped 7 2)).named ⟨1⟩,
          (NoteBody.plain .mention .gold (.clamped 7 1)).named ⟨2⟩,
          (NoteBody.plain .mention .gold (.clamped 16 3)).named ⟨3⟩]

theorem gapped_excerpt : ∃ s, ofRange gapped 10 4 = .ok s ∧ s.indices = [0, 1] ∧ s.text = "doué x  ok"
    ∧ gapped.textAt (.clamped 4 11) = .ok s.text ∧ s.notes.length = 2
    ∧ ∀ n ∈ s.notes, s.Quotes gapped n := by
  let seen : Snippet := ⟨gapped, [0, 1], some (.clamped 4 11)⟩
  have reached : gapped.Reached :=
    .allNoted (.addInPlace (.addInPlace (.addInPlace (.new _) (.ofTokens _)) (.ofTokens _)) (.ofTokens _)) _
  have laid : gapped.WellLaid :=
    ⟨reached.derived, by decide, by decide, Token.chain_pairwise.mpr (by decide)⟩
  obtain ⟨s, made, shown, _⟩ := wellLaid_excerpts laid 10 4 (by decide)
  have seen_made : ofRange gapped 10 4 = .ok seen := rfl
  cases Except.ok.inj (seen_made.symm.trans made)
  obtain ⟨excerpt, quoted⟩ := shown (by decide)
  exact ⟨seen, made, rfl, by decide, excerpt.text, by decide, quoted⟩

end Snippet

end Marginalia
