import Marginalia.Document.Lookup
import Marginalia.Proofs.Excerpts
import Marginalia.Proofs.LaidOut
import Mathlib.Order.Bounds.Basic

namespace Marginalia.Document

-- There is a sentence at the index, and it starts at or before the position.
def StartsBy (d : Document) (position index : Nat) : Prop :=
  ∃ s ∈ d.sentences[index]?, s.start ≤ position

instance (d : Document) (position index : Nat) : Decidable (d.StartsBy position index) :=
  inferInstanceAs (Decidable (∃ s ∈ d.sentences[index]?, s.start ≤ position))

-- What the search is meant to find: the last sentence that starts at or before the position, and none
-- only where there is none.
def FindsLast (d : Document) (position : Nat) : Prop :=
  (∀ i, d.sentenceIndexAt? position = some i ↔ IsGreatest {j | d.StartsBy position j} i)
    ∧ (d.sentenceIndexAt? position = none ↔ ∀ j, ¬ d.StartsBy position j)

-- The search counts the sentences in front of the first that starts too late or is not there.
theorem index_front (d : Document) (position : Nat) : ∃ front, (∀ j < front, d.StartsBy position j)
    ∧ ¬ d.StartsBy position front
    ∧ d.sentenceIndexAt? position = if front = 0 then none else some (front - 1) := by
  cases found : d.sentences.findIdx? fun s => position < s.start with
  | some later =>
    obtain ⟨bound, late, early⟩ := List.findIdx?_eq_some_iff_getElem.mp found
    simp only [decide_eq_true_eq, Nat.not_lt] at late early
    refine ⟨later, ?_, ?_, ?_⟩
    · intro j before
      exact ⟨_, List.getElem?_eq_getElem (Nat.lt_trans before bound), early j before⟩
    · rintro ⟨s, there, starts⟩
      rw [List.getElem?_eq_getElem bound] at there
      cases Option.some.inj there
      omega
    · simp only [sentenceIndexAt?, found]
  | none =>
    have early := List.findIdx?_eq_none_iff.mp found
    simp only [decide_eq_false_iff_not, Nat.not_lt] at early
    refine ⟨d.sentences.length, ?_, ?_, ?_⟩
    · intro j before
      exact ⟨_, List.getElem?_eq_getElem before, early _ (List.getElem_mem before)⟩
    · rintro ⟨s, there, _⟩
      rw [List.getElem?_eq_none (Nat.le_refl _)] at there
      cases there
    · simp only [sentenceIndexAt?, found, List.isEmpty_iff, List.length_eq_zero_iff]

-- Without looking at what lies behind, the search stops in front of the first late sentence.
theorem index_some {d : Document} {position i : Nat} : d.sentenceIndexAt? position = some i
    ↔ (∀ j ≤ i, d.StartsBy position j) ∧ ¬ d.StartsBy position (i + 1) := by
  obtain ⟨front, early, late, found⟩ := d.index_front position
  rw [found]
  constructor
  · intro same
    split at same
    · cases same
    · cases Option.some.inj same
      have place : front - 1 + 1 = front := by omega
      exact ⟨fun j within => early j (by omega), by rwa [place]⟩
  · rintro ⟨all, stopped⟩
    have reaches : i < front := Nat.lt_of_not_le fun past => late (all front past)
    have ends : front ≤ i + 1 := Nat.le_of_not_lt fun further => stopped (early (i + 1) further)
    rw [if_neg (by omega)]
    congr 1
    omega

theorem index_none {d : Document} {position : Nat} :
    d.sentenceIndexAt? position = none ↔ ¬ d.StartsBy position 0 := by
  obtain ⟨front, early, late, found⟩ := d.index_front position
  rw [found]
  constructor
  · intro same
    split at same
    · rename_i zero
      rwa [zero] at late
    · cases same
  · intro stopped
    exact if_pos (Nat.eq_zero_of_not_pos fun more => stopped (early 0 more))

-- The search is right at a position unless a sentence that starts by then stands behind one that does not.
theorem findsLast_exact {d : Document} {position : Nat} :
    d.FindsLast position ↔ ∀ i j, i < j → d.StartsBy position j → d.StartsBy position i := by
  constructor
  · rintro ⟨finds, misses⟩ i j before starts
    cases found : d.sentenceIndexAt? position with
    | none => exact absurd starts (misses.mp found j)
    | some last =>
      have reaches : j ≤ last := ((finds last).mp found).2 starts
      exact (index_some.mp found).1 i (by omega)
  · intro closed
    refine ⟨fun i => ?_, ?_⟩
    · rw [index_some]
      constructor
      · rintro ⟨early, late⟩
        refine ⟨early i (Nat.le_refl i), fun j starts => Nat.le_of_not_lt fun past => late ?_⟩
        rcases Nat.eq_or_lt_of_le (Nat.succ_le_of_lt past) with rfl | further
        · exact starts
        · exact closed (i + 1) j further starts
      · rintro ⟨starts, greatest⟩
        refine ⟨fun j within => ?_, fun more => absurd (greatest more) (Nat.not_succ_le_self i)⟩
        rcases Nat.eq_or_lt_of_le within with rfl | before
        · exact starts
        · exact closed j i before starts
    · rw [index_none]
      constructor
      · intro stopped j starts
        rcases Nat.eq_zero_or_pos j with rfl | behind
        · exact stopped starts
        · exact stopped (closed 0 j behind starts)
      · exact fun none_starts => none_starts 0

-- It is right at all positions exactly where no sentence starts before one in front of it.
theorem findsLast_everywhere {d : Document} :
    (∀ position, d.FindsLast position) ↔ d.sentences.Pairwise fun a b => a.start ≤ b.start := by
  rw [List.pairwise_iff_getElem]
  constructor
  · intro finds i j i_bound j_bound before
    have here : d.StartsBy d.sentences[j].start j := ⟨_, List.getElem?_eq_getElem j_bound, Nat.le_refl _⟩
    obtain ⟨s, there, starts⟩ := findsLast_exact.mp (finds _) i j before here
    rw [List.getElem?_eq_getElem i_bound] at there
    cases Option.some.inj there
    exact starts
  · intro ordered position
    refine findsLast_exact.mpr ?_
    rintro i j before ⟨s, there, starts⟩
    obtain ⟨j_bound, rfl⟩ := List.getElem?_eq_some_iff.mp there
    have i_bound : i < d.sentences.length := by omega
    have earlier := ordered i j i_bound j_bound before
    exact ⟨_, List.getElem?_eq_getElem i_bound, Nat.le_trans earlier starts⟩

theorem WellLaid.findsLast {d : Document} (laid : d.WellLaid) (position : Nat) : d.FindsLast position :=
  findsLast_everywhere.mpr (laid.sentences_along.imp fun along => along.1) position

-- What the search finds in any document, where that is the last sentence that starts by the position,
-- and that careful operations never spoil it.
theorem index_search_exact (d : Document) :
    (∀ position,
        (∀ i, d.sentenceIndexAt? position = some i
          ↔ (∀ j ≤ i, d.StartsBy position j) ∧ ¬ d.StartsBy position (i + 1))
        ∧ (d.sentenceIndexAt? position = none ↔ ¬ d.StartsBy position 0)
        ∧ (d.FindsLast position ↔ ∀ i j, i < j → d.StartsBy position j → d.StartsBy position i))
      ∧ ((∀ position, d.FindsLast position) ↔ d.sentences.Pairwise fun a b => a.start ≤ b.start)
      ∧ (d.LaidOut → ∀ position, d.FindsLast position) :=
  ⟨fun _ => ⟨fun _ => index_some, index_none, findsLast_exact⟩, findsLast_everywhere,
    fun run => run.wellLaid.findsLast⟩

-- Two lines with a gap between them, and a position in the gap.
def hello : Sentence := .ofTokens [.spanning "Hello" (.clamped 0 5)]

def world : Sentence := .ofTokens [.spanning "World" (.clamped 10 5)]

def spaced : Document := ((empty ⟨1⟩).addInPlace hello).addInPlace world

theorem spaced_gap_found : spaced.LaidOut ∧ spaced.sentenceAt? 7 = none
    ∧ spaced.sentenceIndexAt? 7 = some 0 ∧ IsGreatest {j | spaced.StartsBy 7 j} 0 := by
  have first : hello.WellLaid := ⟨by decide, by decide, .singleton _, by decide⟩
  have second : world.WellLaid := ⟨by decide, by decide, .singleton _, by decide⟩
  have run : spaced.LaidOut := .addInPlace (.addInPlace (.new _) first (by decide)) second (by decide)
  have found : spaced.sentenceIndexAt? 7 = some 0 := by decide
  have last := (index_search_exact spaced).2.2 run 7
  exact ⟨run, by decide, found, (last.1 0).mp found⟩

-- A line that came second and stands first: a position in it finds the line itself, but no index.
def overtaken : Document :=
  ((empty ⟨1⟩).addInPlace (.ofTokens [.spanning "late" (.clamped 10 4)])).addInPlace
    (.ofTokens [.spanning "early" (.clamped 2 5)])

theorem overtaken_missed : overtaken.Reached ∧ overtaken.sentenceIndexAt? 5 = none
    ∧ (overtaken.sentenceAt? 5).map Sentence.text = some "early"
    ∧ IsGreatest {j | overtaken.StartsBy 5 j} 1 ∧ ¬ overtaken.FindsLast 5 := by
  have reached : overtaken.Reached := .addInPlace (.addInPlace (.new _) (.ofTokens _)) (.ofTokens _)
  have starts : overtaken.StartsBy 5 1 := by decide
  have missed : overtaken.sentenceIndexAt? 5 = none := by decide
  refine ⟨reached, missed, by decide, ⟨starts, ?_⟩, fun finds => finds.2.mp missed 1 starts⟩
  rintro j ⟨s, there, _⟩
  exact Nat.le_of_lt_succ (List.getElem?_eq_some_iff.mp there).1

end Marginalia.Document
