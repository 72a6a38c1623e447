import Marginalia.Proofs.Layouts
import Marginalia.Proofs.Ranges

namespace Marginalia.Document

theorem textAt_exact {d : Document} {s : Span} {text : String} : d.textAt s = .ok text ↔
    d.start ≤ s.start ∧ s.stop ≤ d.start + Text.bytes d.chars
      ∧ Text.slice (s.start - d.start) (s.stop - d.start) d.chars = some text.toList := by
  unfold textAt
  dsimp only
  split
  · rename_i outside
    constructor
    · intro found
      cases found
    · rintro ⟨starts, stops, _⟩
      omega
  · rename_i inside
    split
    · rename_i piece found
      constructor
      · intro same
        cases Except.ok.inj same
        exact ⟨by omega, by omega, by rw [found, String.toList_ofList]⟩
      · rintro ⟨_, _, sliced⟩
        cases Option.some.inj (found.symm.trans sliced)
        rw [String.ofList_toList]
    · rename_i none_found
      constructor
      · intro found
        cases found
      · rintro ⟨_, _, sliced⟩
        rw [none_found] at sliced
        cases sliced

-- A document without text has none at any range that holds something.
theorem textAt_blank {d : Document} (blank : d.chars = []) {s : Span} (filled : s.start < s.stop)
    (text : String) : d.textAt s ≠ .ok text := by
  intro found
  obtain ⟨starts, stops, _⟩ := textAt_exact.mp found
  rw [blank] at stops
  simp only [Text.bytes, Nat.add_zero] at stops
  omega

theorem chars_bare {d : Document} (bare : d.sentences = []) : d.chars = [] := by
  simp [chars, isEmpty, tokens, bare]

theorem chars_tokens {d : Document} (filled : d.tokens ≠ []) : d.chars = Layout.chars d.start d.tokens := by
  simp [chars, isEmpty, filled]

theorem chars_of_tree {d e : Document} (span : e.span = d.span) (sentences : e.sentences = d.sentences) :
    e.chars = d.chars := by
  unfold chars isEmpty tokens start
  rw [span, sentences]

theorem textAt_of_tree {d e : Document} (span : e.span = d.span) (sentences : e.sentences = d.sentences)
    (s : Span) : e.textAt s = d.textAt s := by
  unfold textAt start
  rw [chars_of_tree span sentences, span]

theorem tokens_bare {d : Document} (bare : d.sentences = []) : d.tokens = [] := by simp [tokens, bare]

theorem Derived.sentence_bounds {d : Document} (derived : d.Derived) {s : Sentence}
    (member : s ∈ d.sentences) : d.start ≤ s.start ∧ s.stop ≤ d.stop :=
  (derived.whole (List.ne_nil_of_mem member)).bounds (List.mem_map_of_mem member)

theorem covered_bounds {s : Sentence} (covered : s.Covered) {t : Token} (member : t ∈ s.tokens) :
    s.start ≤ t.start ∧ t.stop ≤ s.stop :=
  (Sentence.covered_exact.mp covered (List.ne_nil_of_mem member)).bounds (List.mem_map_of_mem member)

theorem Derived.token_bounds {d : Document} (derived : d.Derived) {t : Token} (member : t ∈ d.tokens) :
    d.start ≤ t.start ∧ t.stop ≤ d.stop := by
  obtain ⟨s, held, inside⟩ := List.mem_flatMap.mp member
  have outer := derived.sentence_bounds held
  have inner := covered_bounds (derived.sentences s held) inside
  omega

theorem Derived.finish_le {d : Document} (derived : d.Derived) : Layout.finish d.start d.tokens ≤ d.stop :=
  Layout.finish_le d.span.ordered fun _ member _ => (derived.token_bounds member).2

end Marginalia.Document
