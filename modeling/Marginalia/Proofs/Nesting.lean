import Marginalia.Proofs.Slots
import Marginalia.Proofs.Windows
import Mathlib.Data.List.Flatten

namespace Marginalia

namespace Policy

variable {w : Window} {outer inner : Span}

-- A window that overlaps a part overlaps the whole, any window at all. Which clause takes the whole
-- depends on where its own ends lie, so it need not be the one that takes the part.
theorem overlapping_outer (within : outer.encloses inner = true) (filled : inner.start < inner.stop)
    (taken : Policy.overlapping.selects w inner = true) : Policy.overlapping.selects w outer = true := by
  obtain ⟨starts, stops⟩ := Span.encloses_exact.mp within
  simp only [selects, Bool.or_eq_true, Bool.and_eq_true, decide_eq_true_eq, bne_iff_ne] at taken ⊢
  rcases taken with (⟨before, after⟩ | ⟨⟨behind, ahead⟩, apart⟩) | ⟨before, reaches⟩
  · exact .inl (.inl ⟨Nat.le_trans starts before, Nat.lt_of_lt_of_le after stops⟩)
  · by_cases opens : outer.start ≤ w.start
    · exact .inl (.inl ⟨opens, by omega⟩)
    · by_cases closes : outer.stop ≤ w.stop
      · exact .inl (.inr ⟨⟨by omega, closes⟩, apart⟩)
      · exact .inr ⟨by omega, by omega⟩
  · exact .inr ⟨Nat.lt_of_le_of_lt starts before, Nat.le_trans reaches stops⟩

theorem enclosed_inner (within : outer.encloses inner = true)
    (taken : Policy.enclosed.selects w outer = true) : Policy.enclosed.selects w inner = true := by
  obtain ⟨starts, stops⟩ := Span.encloses_exact.mp within
  obtain ⟨behind, ahead⟩ := enclosed_exact.mp taken
  exact enclosed_exact.mpr ⟨Nat.le_trans behind starts, Nat.le_trans stops ahead⟩

end Policy

-- The range reaches over all tokens. It may reach further than they do.
def Sentence.Holds (s : Sentence) : Prop := ∀ t ∈ s.tokens, s.span.encloses t.span = true

instance (s : Sentence) : Decidable s.Holds :=
  inferInstanceAs (Decidable (∀ t ∈ s.tokens, s.span.encloses t.span = true))

-- What gives nothing can be left out before it is asked.
theorem flatMap_skips {α β : Type} {p : α → Bool} {f : α → List β} {items : List α}
    (nothing : ∀ x ∈ items, p x = false → f x = []) : items.flatMap f = (items.filter p).flatMap f := by
  induction items with
  | nil => rfl
  | cons x rest ih =>
    have later := ih fun y member => nothing y (List.mem_cons_of_mem _ member)
    cases taken : p x with
    | true => rw [List.filter_cons_of_pos taken, List.flatMap_cons, List.flatMap_cons, later]
    | false =>
      rw [List.filter_cons_of_neg (by simp [taken]), List.flatMap_cons, later,
        nothing x List.mem_cons_self taken]
      rfl

namespace Document

open Layout

variable {d : Document} (w : Window)

theorem tokensIn_sentences (d : Document) (p : Policy) :
    d.tokensIn w p = d.sentences.flatMap fun s => s.tokensIn w p :=
  List.filter_flatMap

theorem overlapping_sentence {s : Sentence} (holds : s.Holds) {t : Token} (member : t ∈ s.tokens)
    (filled : t.start < t.stop) (taken : Policy.overlapping.selects w t.span = true) :
    Policy.overlapping.selects w s.span = true :=
  Policy.overlapping_outer (holds t member) filled taken

-- The words that a window overlaps are those it overlaps in the sentences it overlaps.
theorem overlapping_words (holds : ∀ s ∈ d.sentences, s.Holds) : inked (d.tokensIn w .overlapping)
    = (d.sentencesIn w .overlapping).flatMap fun s => inked (s.tokensIn w .overlapping) := by
  rw [tokensIn_sentences, inked, List.filter_flatMap]
  apply flatMap_skips
  intro s listed left_out
  apply List.eq_nil_iff_forall_not_mem.mpr
  intro t shown
  obtain ⟨chosen, slot⟩ := mem_inked.mp shown
  obtain ⟨member, taken⟩ := List.mem_filter.mp chosen
  have reached := overlapping_sentence w (holds s listed) member (Token.isEmpty_false.mp slot) taken
  rw [left_out] at reached
  cases reached

theorem overlapping_shown (holds : ∀ s ∈ d.sentences, s.Holds) :
    (inked (d.tokensIn w .overlapping)).Sublist ((d.sentencesIn w .overlapping).flatMap Sentence.tokens) := by
  rw [overlapping_words w holds]
  apply List.Sublist.flatMap_right
  intro s _
  exact List.filter_sublist.trans List.filter_sublist

theorem enclosed_shown (holds : ∀ s ∈ d.sentences, s.Holds) :
    ((d.sentencesIn w .enclosed).flatMap Sentence.tokens).Sublist (d.tokensIn w .enclosed) := by
  have whole : ∀ s ∈ d.sentencesIn w .enclosed, s.tokens = s.tokensIn w .enclosed := by
    intro s shown
    obtain ⟨listed, taken⟩ := List.mem_filter.mp shown
    refine (List.filter_eq_self.mpr ?_).symm
    intro t member
    exact Policy.enclosed_inner (holds s listed t member) taken
  rw [tokensIn_sentences, List.flatMap_congr whole]
  exact List.filter_sublist.flatMap _

-- Selecting words and selecting sentences agree in any window, one with its ends crossed as well:
-- overlapped words lie in overlapped sentences, enclosed sentences hold enclosed words, and a
-- snippet misses no word that its window overlaps.
theorem windows_nest (holds : ∀ s ∈ d.sentences, s.Holds) (w : Window) :
    (∀ s ∈ d.sentences, ∀ t ∈ s.tokens, t.start < t.stop → t ∈ d.tokensIn w .overlapping →
        s ∈ d.sentencesIn w .overlapping)
      ∧ ((d.sentencesIn w .enclosed).flatMap Sentence.tokens).Sublist (d.tokensIn w .enclosed)
      ∧ (∀ p, d.tokensIn w p = d.sentences.flatMap fun s => s.tokensIn w p)
      ∧ ∀ start length snippet, Snippet.ofRange d start length = .ok snippet →
        (inked (d.tokensIn ⟨start, start + length⟩ .overlapping)).Sublist snippet.tokens := by
  refine ⟨?_, enclosed_shown w holds, tokensIn_sentences w d, ?_⟩
  · intro s listed t member filled chosen
    have taken := (List.mem_filter.mp chosen).2
    exact List.mem_filter.mpr ⟨listed, overlapping_sentence w (holds s listed) member filled taken⟩
  · intro start length snippet made
    obtain ⟨window, rfl, rfl, rfl⟩ := Snippet.ofRange_parts made
    have reaches : window.start + window.length = window.stop := Nat.add_sub_cancel' window.ordered
    rw [reaches, Snippet.tokens, Snippet.ofWindow_sentences]
    exact overlapping_shown window.window holds

-- An empty token at the end of a sentence can lie in a window that its sentence only touches.
example : Policy.overlapping.selects ⟨5, 8⟩ (.clamped 5 0) = true
    ∧ Policy.overlapping.selects ⟨5, 8⟩ (.clamped 2 3) = false := by decide

-- Two words of a line that reaches further than they do, asked for with the ends crossed: one holds
-- the first end, the other reaches the second.
def roomyLine : Sentence := ⟨.clamped 0 12, [.spanning "ab" (.clamped 2 3), .spanning "cde" (.clamped 6 4)]⟩

def roomyLines : Document := ((empty ⟨1⟩).addInPlace roomyLine).addInPlace (.spanning (.clamped 20 4))

theorem roomyLines_crossed : (∀ s ∈ roomyLines.sentences, s.Holds)
    ∧ roomyLines.tokensIn ⟨7, 4⟩ .overlapping = roomyLine.tokens
    ∧ roomyLine ∈ roomyLines.sentencesIn ⟨7, 4⟩ .overlapping
    ∧ ∃ s, Snippet.ofRange roomyLines 4 4 = .ok s
      ∧ (inked (roomyLines.tokensIn ⟨4, 8⟩ .overlapping)).Sublist s.tokens := by
  have holds : ∀ s ∈ roomyLines.sentences, s.Holds := by decide
  obtain ⟨crossed, _, _, shown⟩ := windows_nest holds ⟨7, 4⟩
  have both : roomyLines.tokensIn ⟨7, 4⟩ .overlapping = roomyLine.tokens := by decide
  have line := crossed roomyLine (by decide) (.spanning "ab" (.clamped 2 3)) (by decide) (by decide)
    (by rw [both]; decide)
  have made : Snippet.ofRange roomyLines 4 4 = .ok ⟨roomyLines, [0], some (.clamped 0 12)⟩ := rfl
  exact ⟨holds, both, line, _, made, shown 4 4 _ made⟩

end Document

end Marginalia
