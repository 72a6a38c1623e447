import Marginalia.Proofs.Appending

namespace Marginalia

theorem Token.chain_pairwise {tokens : List Token} :
    tokens.IsChain Token.Before ↔ tokens.Pairwise Token.Before :=
  List.isChain_iff_pairwise

-- Where every word fills a slot, the words that do run forward if all do.
theorem Layout.forward_filled {tokens : List Token} (filled : ∀ t ∈ tokens, t.start < t.stop)
    (ordered : tokens.IsChain Token.Before) : Layout.Forward tokens := by
  have all_inked : (tokens.filter fun t => !t.isEmpty) = tokens := by
    apply List.filter_eq_self.mpr
    intro t member
    rw [Token.isEmpty_false.mpr (filled t member)]
    rfl
  rwa [Layout.Forward, all_inked]

namespace Sentence

-- Words that hold something, each behind the one before it, in the range they cover.
structure WellLaid (s : Sentence) : Prop where
  held : s.tokens ≠ []
  filled : ∀ t ∈ s.tokens, t.start < t.stop
  ordered : s.tokens.IsChain Token.Before
  covers : s.span.IsCover (s.tokens.map Token.span)

theorem WellLaid.covered {s : Sentence} (laid : s.WellLaid) : s.Covered :=
  covered_exact.mpr fun _ => laid.covers

theorem movedTo_token {s : Sentence} (covered : s.Covered) {start : Nat}
    (fits : start + s.length ≤ maxOffset) {t : Token} (member : t ∈ s.tokens) :
    (t.movedTo (start + (t.start - s.start))).start = start + (t.start - s.start)
      ∧ (t.movedTo (start + (t.start - s.start))).stop = start + (t.stop - s.start) := by
  have inside := Document.covered_bounds covered member
  have ordered := t.ordered
  simp only [length, Span.length, Token.movedTo, Span.movedTo, Span.clamped, Token.start, Token.stop,
    Sentence.start, Sentence.stop] at *
  omega

-- A move that passes no limit keeps every distance.
theorem movedTo_wellLaid {s : Sentence} (laid : s.WellLaid) {start : Nat}
    (fits : start + s.length ≤ maxOffset) : (s.movedTo start).WellLaid := by
  have covered := laid.covered
  have still_held : (s.movedTo start).tokens ≠ [] := by simpa [movedTo] using laid.held
  refine ⟨still_held, ?_, ?_, covered_exact.mp (movedTo_covered covered start) still_held⟩
  · intro t member
    obtain ⟨old, old_in, rfl⟩ := List.mem_map.mp member
    obtain ⟨starts, stops⟩ := movedTo_token covered fits old_in
    have inside := Document.covered_bounds covered old_in
    have filled := laid.filled old old_in
    omega
  · refine Token.chain_pairwise.mpr (List.pairwise_map.mpr ?_)
    refine (Token.chain_pairwise.mp laid.ordered).imp_of_mem ?_
    intro a b a_in b_in before
    have inside := Document.covered_bounds covered b_in
    rw [Token.Before, (movedTo_token covered fits a_in).2, (movedTo_token covered fits b_in).1]
    simp only [Token.Before] at before
    omega

end Sentence

namespace Document

-- Words that hold something, each behind the one before it, in sentences that hold some, under
-- ranges that are exact on every level.
structure WellLaid (d : Document) : Prop extends Derived d where
  held : ∀ s ∈ d.sentences, s.tokens ≠ []
  filled : ∀ t ∈ d.tokens, t.start < t.stop
  ordered : d.tokens.IsChain Token.Before

theorem empty_wellLaid (handle : Handle) : (empty handle).WellLaid :=
  ⟨empty_derived handle, by simp [empty], by simp [empty, tokens], by simp [empty, tokens]⟩

theorem cleared_wellLaid (d : Document) : d.cleared.WellLaid :=
  ⟨cleared_derived d, by simp [cleared], by simp [cleared, tokens], by simp [cleared, tokens]⟩

theorem WellLaid.of_shape {d e : Document} (laid : d.WellLaid) (span : e.span = d.span)
    (shape : e.shape = d.shape) : e.WellLaid := by
  have ranges : e.tokens.map Token.span = d.tokens.map Token.span := by
    rw [← shape_ranges, shape, shape_ranges]
  refine ⟨laid.toDerived.of_shape span shape, ?_, ?_, ?_⟩
  · intro s member
    obtain ⟨old, old_in, _, same_ranges⟩ := mem_shape shape member
    intro none_held
    rw [none_held] at same_ranges
    exact laid.held old old_in (List.map_eq_nil_iff.mp same_ranges)
  · intro t member
    have listed : t.span ∈ d.tokens.map Token.span := ranges ▸ List.mem_map_of_mem member
    obtain ⟨old, old_in, same⟩ := List.mem_map.mp listed
    have old_filled := laid.filled old old_in
    simpa only [Token.start, Token.stop, same] using old_filled
  · have chained : (d.tokens.map Token.span).IsChain fun a b => a.stop ≤ b.start :=
      (List.isChain_map _).mpr laid.ordered
    rw [← ranges] at chained
    exact (List.isChain_map Token.span).mp chained

theorem tokens_addInPlace (d : Document) (s : Sentence) : (d.addInPlace s).tokens = d.tokens ++ s.tokens := by
  simp [tokens]

theorem addInPlace_wellLaid {d : Document} (laid : d.WellLaid) {s : Sentence} (added : s.WellLaid)
    (behind : d.sentences ≠ [] → d.stop ≤ s.start) : (d.addInPlace s).WellLaid := by
  refine ⟨addInPlace_derived laid.toDerived added.covered, ?_, ?_, ?_⟩
  · intro t member
    rcases mem_pushed member with old | rfl
    · exact laid.held t old
    · exact added.held
  · intro t member
    rw [tokens_addInPlace] at member
    rcases List.mem_append.mp member with old | new
    · exact laid.filled t old
    · exact added.filled t new
  · rw [tokens_addInPlace]
    refine Token.chain_pairwise.mpr (List.pairwise_append.mpr
      ⟨Token.chain_pairwise.mp laid.ordered, Token.chain_pairwise.mp added.ordered, ?_⟩)
    intro a a_in b b_in
    have inside := laid.token_bounds a_in
    have starts := (covered_bounds added.covered b_in).1
    have gap := behind fun bare => by simp [tokens_bare bare] at a_in
    simp only [Token.Before]
    omega

theorem addAtEnd_wellLaid {d : Document} (laid : d.WellLaid) {s : Sentence} (added : s.WellLaid)
    (fits : d.landing + s.length ≤ maxOffset) : (d.addAtEnd s).WellLaid := by
  rw [addAtEnd_inPlace laid.bare]
  apply addInPlace_wellLaid laid (Sentence.movedTo_wellLaid added fits)
  intro filled
  have landed : d.landing = d.stop + 1 := by simp [landing, filled]
  have room : d.landing ≤ maxOffset := by omega
  simp only [Sentence.start, Sentence.movedTo, Span.movedTo, Span.clamped]
  omega

theorem append_wellLaid {d other : Document} (laid : d.WellLaid) (added : other.WellLaid)
    (fits : d.joint + other.stop ≤ maxOffset) : (d.append other).WellLaid := by
  have token_fits : ∀ t ∈ other.tokens, t.stop + d.joint ≤ maxOffset := fun t member => by
    have := (added.token_bounds member).2
    omega
  refine ⟨append_derived laid.toDerived added.toDerived, ?_, ?_, ?_⟩
  · intro s member
    rw [append_sentences] at member
    rcases List.mem_append.mp member with old | new
    · exact laid.held s old
    · obtain ⟨moved, moved_in, rfl⟩ := List.mem_map.mp new
      simpa [Sentence.shifted] using added.held moved moved_in
  · intro t member
    rw [append_tokens] at member
    rcases List.mem_append.mp member with old | new
    · exact laid.filled t old
    · obtain ⟨moved, moved_in, rfl⟩ := List.mem_map.mp new
      have filled := added.filled moved moved_in
      rw [Token.shifted_start (token_fits moved moved_in), Token.shifted_stop (token_fits moved moved_in)]
      omega
  · rw [append_tokens]
    refine Token.chain_pairwise.mpr (List.pairwise_append.mpr
      ⟨Token.chain_pairwise.mp laid.ordered, List.pairwise_map.mpr ?_, ?_⟩)
    · refine (Token.chain_pairwise.mp added.ordered).imp_of_mem ?_
      intro a b a_in b_in before
      rw [Token.Before, Token.shifted_stop (token_fits a a_in), Token.shifted_start (token_fits b b_in)]
      simp only [Token.Before] at before
      omega
    · intro a a_in b b_in
      obtain ⟨moved, moved_in, rfl⟩ := List.mem_map.mp b_in
      have inside := laid.token_bounds a_in
      have := d.stop_le_joint
      rw [Token.Before, Token.shifted_start (token_fits moved moved_in)]
      omega

theorem WellLaid.inked {d : Document} (laid : d.WellLaid) {t : Token} (member : t ∈ d.tokens) :
    t.isEmpty = false :=
  Token.isEmpty_false.mpr (laid.filled t member)

theorem WellLaid.forward {d : Document} (laid : d.WellLaid) : Layout.Forward d.tokens :=
  Layout.forward_filled laid.filled laid.ordered

theorem WellLaid.tokens_held {d : Document} (laid : d.WellLaid) (filled : d.sentences ≠ []) :
    d.tokens ≠ [] := by
  obtain ⟨s, rest, split⟩ := List.exists_cons_of_ne_nil filled
  have held := laid.held s (by simp [split])
  simp [tokens, split, held]

-- The range of a document is the cover of its words as well, past its sentences.
theorem WellLaid.token_cover {d : Document} (laid : d.WellLaid) (filled : d.sentences ≠ []) :
    d.span.IsCover (d.tokens.map Token.span) := by
  have spans : d.span.IsCover (d.shape.map Prod.fst) := by
    rw [shape_spans]
    exact laid.whole filled
  have each : ∀ g ∈ d.shape, g.1.IsCover g.2 := by
    intro g member
    obtain ⟨s, held, rfl⟩ := List.mem_map.mp member
    exact Sentence.covered_exact.mp (laid.sentences s held) (laid.held s held)
  rw [← shape_ranges]
  exact spans.through each

theorem WellLaid.laid_stop {d : Document} (laid : d.WellLaid) : d.start + Text.bytes d.chars = d.stop := by
  by_cases bare : d.sentences = []
  · simp [chars_bare bare, start, stop, laid.bare bare, Span.origin, Text.bytes]
  · rw [chars_tokens (laid.tokens_held bare)]
    exact Layout.bytes_cover (laid.token_cover bare) laid.forward fun t member => laid.inked member

-- The range that covers a run of words holds the text that these words lay out alone.
theorem WellLaid.textAt_block {d : Document} (laid : d.WellLaid) (before block after : List Token)
    (parts : d.tokens = before ++ (block ++ after)) {span : Span}
    (covers : span.IsCover (block.map Token.span)) :
    d.textAt span = .ok (Layout.text span.start block) := by
  have forward := laid.forward
  rw [parts] at forward
  have block_in : ∀ t ∈ block, t ∈ d.tokens := fun t member => by simp [parts, member]
  have before_in : ∀ t ∈ before, t ∈ d.tokens := fun t member => by simp [parts, member]
  obtain ⟨first, first_in, starts⟩ := covers.first_token
  obtain ⟨last, last_in, stops⟩ := covers.last_token
  have first_bounds := laid.token_bounds (block_in first first_in)
  have last_bounds := laid.token_bounds (block_in last last_in)
  have behind : ∀ t ∈ before, t.stop ≤ span.start := fun t member => by
    have chained := Token.chain_pairwise.mp laid.ordered
    rw [parts] at chained
    have gap := (List.pairwise_append.mp chained).2.2 t member first (by simp [first_in])
    simp only [Token.Before] at gap
    omega
  have sliced := Layout.block_sliced d.start span.start forward
    (fun t member _ => (laid.token_bounds (before_in t member)).1)
    (Layout.finish_le (by omega) fun t member _ => behind t member)
    (fun t member _ => (covers.bounds (List.mem_map_of_mem member)).1)
    ⟨first, first_in, laid.inked (block_in first first_in)⟩
  rw [Layout.finish_cover covers forward.last.first fun t member => laid.inked (block_in t member),
    ← parts] at sliced
  have held : d.tokens ≠ [] := List.ne_nil_of_mem (block_in first first_in)
  refine textAt_exact.mpr ⟨by omega, ?_, ?_⟩
  · have reaches := laid.laid_stop
    omega
  · rw [chars_tokens held, Layout.text, String.toList_ofList]
    exact sliced

theorem WellLaid.textAt_token {d : Document} (laid : d.WellLaid) {t : Token} (member : t ∈ d.tokens) :
    d.textAt t.span = .ok (String.ofList (Layout.fill t.length t.text.toList)) := by
  obtain ⟨before, after, parts⟩ := List.append_of_mem member
  have alone := laid.textAt_block before [t] after parts (Span.isCover_single t.span)
  have slot : Layout.text t.span.start [t] = String.ofList (Layout.fill t.length t.text.toList) := by
    have no_lead : Layout.lead t.span.start t.start = [] := by
      simp only [Layout.lead, Token.start, Nat.lt_irrefl, if_false, Nat.sub_self]
      rfl
    rw [Layout.text, Layout.chars_slot (laid.inked member), no_lead]
    simp only [Layout.chars, List.nil_append, List.append_nil]
  rw [alone, slot]

theorem WellLaid.textAt_sentence {d : Document} (laid : d.WellLaid) {s : Sentence}
    (member : s ∈ d.sentences) : d.textAt s.span = .ok s.text := by
  obtain ⟨before, after, parts⟩ := List.append_of_mem member
  have covers := Sentence.covered_exact.mp (laid.sentences s member) (laid.held s member)
  exact laid.textAt_block (before.flatMap Sentence.tokens) s.tokens (after.flatMap Sentence.tokens)
    (by simp [tokens, parts]) covers

theorem WellLaid.textAt_whole {d : Document} (laid : d.WellLaid) : d.textAt d.span = .ok d.text := by
  refine textAt_exact.mpr ⟨Nat.le_refl _, Nat.le_of_eq laid.laid_stop.symm, ?_⟩
  have size : d.span.stop - d.start = Text.bytes d.chars := by
    have reaches := laid.laid_stop
    simp only [stop] at reaches
    omega
  rw [size, text, String.toList_ofList, show d.span.start - d.start = 0 from Nat.sub_self _]
  exact Text.slice_whole d.chars

end Document

end Marginalia
