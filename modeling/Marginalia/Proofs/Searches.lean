import Marginalia.Proofs.Positions
import Marginalia.Proofs.Windows

namespace Marginalia

-- A test that no two things of a list pass together takes the first that passes, and nothing else.
theorem filter_alone {α : Type} {p : α → Bool} {items : List α}
    (alone : items.Pairwise fun a b => p a = true → p b = false) : items.filter p = (items.find? p).toList := by
  induction items with
  | nil => rfl
  | cons x rest ih =>
    obtain ⟨first, tail⟩ := List.pairwise_cons.mp alone
    cases taken : p x with
    | true =>
      have none_behind : rest.filter p = [] := by
        apply List.filter_eq_nil_iff.mpr
        intro y later
        rw [first y later taken]
        exact Bool.false_ne_true
      rw [List.filter_cons_of_pos taken, List.find?_cons_of_pos taken, none_behind]
      rfl
    | false =>
      have left_out : ¬ p x = true := by simp [taken]
      rw [List.filter_cons_of_neg left_out, List.find?_cons_of_neg left_out]
      exact ih tail

theorem Span.contains_exact {s : Span} {position : Nat} :
    s.contains position = true ↔ s.start ≤ position ∧ position < s.stop := by
  simp only [contains, Bool.and_eq_true, decide_eq_true_eq]

-- One sentence ends before the other begins, or where it does.
def Sentence.Before (a b : Sentence) : Prop := a.stop ≤ b.start

instance : DecidableRel Sentence.Before := fun a b => inferInstanceAs (Decidable (a.stop ≤ b.start))

instance : Trans Sentence.Before Sentence.Before Sentence.Before where
  trans {a b c} first second := by
    have ordered : b.start ≤ b.stop := b.span.ordered
    exact Nat.le_trans (Nat.le_trans first ordered) second

namespace Document

-- Sentences that hold something, each behind the one before it. What lies within a sentence is
-- free but for its range, so its words may stand in any order.
structure Lined (d : Document) : Prop where
  filled : ∀ s ∈ d.sentences, s.start < s.stop
  covered : ∀ s ∈ d.sentences, s.Covered
  ordered : d.sentences.IsChain Sentence.Before

variable {d : Document}

theorem Lined.apart (lined : d.Lined) : d.sentences.Pairwise Sentence.Before :=
  List.isChain_iff_pairwise.mp lined.ordered

-- No position lies in two sentences.
theorem Lined.alone (lined : d.Lined) (position : Nat) :
    d.sentences.Pairwise fun a b => a.span.contains position = true → b.span.contains position = false := by
  apply lined.apart.imp
  intro a b before holds
  apply Bool.eq_false_iff.mpr
  intro other
  have inside := Span.contains_exact.mp holds
  have within := Span.contains_exact.mp other
  simp only [Sentence.Before, Sentence.start, Sentence.stop] at before
  omega

theorem Lined.found (lined : d.Lined) {position : Nat} {s : Sentence} :
    d.sentenceAt? position = some s ↔ s ∈ d.sentences ∧ s.span.contains position = true := by
  rw [sentenceAt?, ← Option.mem_toList, ← filter_alone (lined.alone position), List.mem_filter]

theorem Lined.findsLast (lined : d.Lined) (position : Nat) : d.FindsLast position := by
  apply findsLast_everywhere.mpr
  apply lined.apart.imp
  intro a b before
  exact Nat.le_trans a.span.ordered before

-- A sentence that holds the position is the last one that starts by then.
theorem Lined.index_held (lined : d.Lined) {i : Nat} {s : Sentence} (there : d.sentences[i]? = some s)
    {position : Nat} (holds : s.span.contains position = true) : d.sentenceIndexAt? position = some i := by
  obtain ⟨starts, stops⟩ := Span.contains_exact.mp holds
  refine ((lined.findsLast position).1 i).mpr ⟨⟨s, there, starts⟩, ?_⟩
  rintro j ⟨t, listed, reaches⟩
  apply Nat.le_of_not_lt
  intro behind
  obtain ⟨i_bound, rfl⟩ := List.getElem?_eq_some_iff.mp there
  obtain ⟨j_bound, rfl⟩ := List.getElem?_eq_some_iff.mp listed
  have before := List.pairwise_iff_getElem.mp lined.apart i j i_bound j_bound behind
  simp only [Sentence.Before, Sentence.stop] at before
  omega

theorem Lined.held_exact (lined : d.Lined) {position : Nat} {s : Sentence} : d.sentenceAt? position = some s
    ↔ ∃ i, d.sentenceIndexAt? position = some i ∧ d.sentences[i]? = some s ∧ position < s.stop := by
  rw [lined.found]
  constructor
  · rintro ⟨member, holds⟩
    obtain ⟨i, there⟩ := List.mem_iff_getElem?.mp member
    exact ⟨i, lined.index_held there holds, there, (Span.contains_exact.mp holds).2⟩
  · rintro ⟨i, found, there, stops⟩
    obtain ⟨t, listed, starts⟩ := (index_some.mp found).1 i (Nat.le_refl i)
    cases Option.some.inj (there.symm.trans listed)
    exact ⟨List.mem_of_getElem? there, Span.contains_exact.mpr ⟨starts, stops⟩⟩

-- The window of a single position overlaps what holds that position.
theorem Lined.point_window (lined : d.Lined) (position : Nat) :
    d.sentencesIn ⟨position, position + 1⟩ .overlapping = (d.sentenceAt? position).toList := by
  rw [sentenceAt?, ← filter_alone (lined.alone position)]
  apply List.filter_congr
  intro s member
  have wide := Policy.overlapping_wide (w := ⟨position, position + 1⟩) (Nat.lt_succ_self position)
    (lined.filled s member)
  rw [Bool.eq_iff_iff, wide, Span.contains_exact]
  exact and_congr_left' Nat.lt_succ_iff

theorem Lined.token_held (lined : d.Lined) {i : Nat} {s : Sentence} (there : d.sentences[i]? = some s)
    {t : Token} (member : t ∈ s.tokens) {position : Nat} (holds : t.span.contains position = true) :
    d.sentenceAt? position = some s ∧ d.sentenceIndexAt? position = some i := by
  have listed := List.mem_of_getElem? there
  have bounds := covered_bounds (lined.covered s listed) member
  have inside := Span.contains_exact.mp holds
  have within : s.span.contains position = true := by
    apply Span.contains_exact.mpr
    simp only [Sentence.start, Sentence.stop, Token.start, Token.stop] at bounds
    omega
  exact ⟨lined.found.mpr ⟨listed, within⟩, lined.index_held there within⟩

-- Further on, the search finds the same index or a later one, in whatever order the sentences stand.
theorem index_monotone {p q i : Nat} (further : p ≤ q) (found : d.sentenceIndexAt? p = some i) :
    ∃ j, i ≤ j ∧ d.sentenceIndexAt? q = some j := by
  have early := (index_some.mp found).1
  obtain ⟨front, _, late, ends⟩ := d.index_front q
  have beyond : i < front := by
    apply Nat.lt_of_not_le
    intro within
    obtain ⟨s, there, starts⟩ := early front within
    exact late ⟨s, there, Nat.le_trans starts further⟩
  rw [if_neg (by omega)] at ends
  exact ⟨front - 1, by omega, ends⟩

-- The first sentence that holds a position, the last one that starts by it, and those that a window of
-- one position overlaps are the same sentence.
theorem lookups_agree (lined : d.Lined) :
    (∀ position s, d.sentenceAt? position = some s
        ↔ ∃ i, d.sentenceIndexAt? position = some i ∧ d.sentences[i]? = some s ∧ position < s.stop)
      ∧ (∀ position, d.sentencesIn ⟨position, position + 1⟩ .overlapping = (d.sentenceAt? position).toList)
      ∧ (∀ i s, d.sentences[i]? = some s → ∀ t ∈ s.tokens, ∀ position, t.span.contains position = true →
          d.sentenceAt? position = some s ∧ d.sentenceIndexAt? position = some i)
      ∧ ∀ p q, p ≤ q → ∀ i, d.sentenceIndexAt? p = some i → ∃ j, i ≤ j ∧ d.sentenceIndexAt? q = some j := by
  refine ⟨fun _ _ => lined.held_exact, lined.point_window, ?_, ?_⟩
  · intro i s there t member position holds
    exact lined.token_held there member holds
  · intro p q further i found
    exact index_monotone further found

-- Two lines that touch, the second with its words in the wrong order, and one behind a gap.
def turned : Sentence := .ofTokens [.spanning "c" (.clamped 8 1), .spanning "b" (.clamped 5 2)]

def touching : Document :=
  (((empty ⟨1⟩).addInPlace hello).addInPlace turned).addInPlace (.ofTokens [.spanning "d" (.clamped 12 1)])

theorem touching_lookups : touching.Lined
    ∧ (touching.sentenceAt? 5 = some turned ∧ touching.sentenceIndexAt? 5 = some 1)
    ∧ touching.sentencesIn ⟨5, 6⟩ .overlapping = [turned]
    ∧ (touching.sentenceIndexAt? 10 = some 1 ∧ touching.sentencesIn ⟨10, 11⟩ .overlapping = [])
    ∧ ∃ j, 1 ≤ j ∧ touching.sentenceIndexAt? 13 = some j := by
  have lined : touching.Lined :=
    ⟨by decide, fun s member => Sentence.covered_exact.mpr (by revert s; decide), by decide⟩
  obtain ⟨_, windows, tokens, onward⟩ := lookups_agree lined
  have word := tokens 1 turned rfl (.spanning "b" (.clamped 5 2)) (by decide) 5 (by decide)
  have none_there : touching.sentenceAt? 10 = none := by decide
  have gap : touching.sentenceIndexAt? 10 = some 1 := by decide
  refine ⟨lined, word, ?_, ⟨gap, ?_⟩, onward 10 13 (by decide) 1 gap⟩
  · rw [windows 5, word.1]
    rfl
  · rw [windows 10, none_there]
    rfl

end Document

end Marginalia
