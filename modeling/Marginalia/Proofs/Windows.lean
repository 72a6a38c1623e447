import Marginalia.Proofs.Covers
import Marginalia.Proofs.Ranges
import Marginalia.Snippet
import Mathlib.Data.List.Basic

namespace Marginalia

namespace Policy

theorem enclosed_exact {w : Window} {item : Span} :
    Policy.enclosed.selects w item = true ↔ w.start ≤ item.start ∧ item.stop ≤ w.stop := by
  simp only [selects, Bool.and_eq_true, decide_eq_true_eq]

-- In a window that holds something, the three clauses together are plain overlap.
theorem overlapping_wide {w : Window} {item : Span} (wide : w.start < w.stop)
    (filled : item.start < item.stop) :
    Policy.overlapping.selects w item = true ↔ item.start < w.stop ∧ w.start < item.stop := by
  simp only [selects, Bool.or_eq_true, Bool.and_eq_true, decide_eq_true_eq, bne_iff_ne]
  omega

-- At a single position they take what reaches it, also with an end alone.
theorem overlapping_point {w : Window} {item : Span} (point : w.start = w.stop)
    (filled : item.start < item.stop) :
    Policy.overlapping.selects w item = true ↔ item.start ≤ w.start ∧ w.start ≤ item.stop := by
  simp only [selects, Bool.or_eq_true, Bool.and_eq_true, decide_eq_true_eq, bne_iff_ne]
  omega

end Policy

namespace Snippet

-- The sentences that a window overlaps, with their indices.
def hits (d : Document) (w : Window) : List (Sentence × Nat) :=
  d.sentences.zipIdx.filter fun item => Policy.overlapping.selects w item.1.span

-- The range of the sentences shown, told by the first and the last of them alone.
def ends (window : Span) (shown : List Sentence) : Span :=
  match shown.head?, shown.getLast? with
  | some first, some last => first.span.cover last.span
  | _, _ => window

theorem hits_sentences (d : Document) (w : Window) :
    (hits d w).map Prod.fst = d.sentencesIn w .overlapping := by
  have same := List.filter_map (f := Prod.fst)
    (p := fun s : Sentence => Policy.overlapping.selects w s.span) (l := d.sentences.zipIdx)
  rw [List.zipIdx_map_fst] at same
  exact same.symm

-- The indices find the sentences again.
theorem sentences_hits (d : Document) (w : Window) (span? : Option Span) :
    (Snippet.mk d ((hits d w).map Prod.snd) span?).sentences = d.sentencesIn w .overlapping := by
  have found : ∀ item ∈ hits d w, d.sentences[item.2]? = (some ∘ Prod.fst) item := fun item member =>
    List.mem_zipIdx_iff_getElem?.mp (List.mem_filter.mp member).1
  calc (Snippet.mk d ((hits d w).map Prod.snd) span?).sentences
      = (hits d w).filterMap (fun item => d.sentences[item.2]?) := List.filterMap_map
    _ = (hits d w).filterMap (some ∘ Prod.fst) := List.filterMap_congr found
    _ = d.sentencesIn w .overlapping := by rw [List.filterMap_eq_map, hits_sentences]

theorem ends_hits (d : Document) (window : Span) :
    (match (hits d window.window).head?, (hits d window.window).getLast? with
      | some first, some last => first.1.span.cover last.1.span
      | _, _ => window) = ends window (d.sentencesIn window.window .overlapping) := by
  rw [← hits_sentences, ends, List.head?_map, List.getLast?_map]
  cases (hits d window.window).head? <;> cases (hits d window.window).getLast? <;> rfl

def ofWindow (d : Document) (window : Span) : Snippet :=
  ⟨d, (hits d window.window).map Prod.snd, some (ends window (d.sentencesIn window.window .overlapping))⟩

theorem ofWindow_sentences (d : Document) (window : Span) :
    (ofWindow d window).sentences = d.sentencesIn window.window .overlapping :=
  sentences_hits d window.window _

theorem ofWindow_span (d : Document) (window : Span) :
    (ofWindow d window).span = ends window (ofWindow d window).sentences := by
  rw [ofWindow_sentences]
  rfl

-- A window that passes no limit always gives a snippet.
theorem ofRange_made (d : Document) (window : Span) :
    ofRange d window.start window.length = .ok (ofWindow d window) := by
  have ordered := window.ordered
  have bounded := window.bounded
  have reaches : window.start + window.length = window.stop := by
    simp only [Span.length]
    omega
  have measured : Span.measured window.start window.length = .ok window := by
    unfold Span.measured
    rw [dif_pos (by omega)]
    exact congrArg _ (Span.same_ends rfl reaches)
  rw [ofWindow, ← ends_hits, ofRange, measured]
  rfl

theorem ofRange_parts {d : Document} {start length : Nat} {s : Snippet}
    (made : ofRange d start length = .ok s) :
    ∃ window : Span, window.start = start ∧ window.length = length ∧ s = ofWindow d window := by
  by_cases fits : start + length ≤ maxOffset
  · let window : Span := ⟨start, start + length, Nat.le_add_right _ _, fits⟩
    have same_length : window.length = length := Nat.add_sub_cancel_left ..
    have found := ofRange_made d window
    rw [same_length, made] at found
    exact ⟨window, rfl, same_length, Except.ok.inj found⟩
  · rw [ofRange, Span.measured, dif_neg fits] at made
    cases made

theorem mem_notes {s : Snippet} (ranged : s.span? = some s.span) {n : Note} :
    n ∈ s.notes ↔ n ∈ s.source.notes ∧ s.span.encloses n.span = true := by
  rw [notes, ranged, List.mem_filter]

end Snippet

theorem Span.encloses_exact {outer inner : Span} :
    outer.encloses inner = true ↔ outer.start ≤ inner.start ∧ inner.stop ≤ outer.stop := by
  simp only [encloses, Bool.and_eq_true, decide_eq_true_eq]

-- The one sentence neither starts nor stops before the other.
def Sentence.Along (a b : Sentence) : Prop := a.start ≤ b.start ∧ a.stop ≤ b.stop

instance : DecidableRel Sentence.Along := fun a b =>
  inferInstanceAs (Decidable (a.start ≤ b.start ∧ a.stop ≤ b.stop))

namespace Snippet

theorem ends_held (window : Span) {shown : List Sentence} (held : shown ≠ []) :
    ∃ first ∈ shown.head?, ∃ last ∈ shown.getLast?, ends window shown = first.span.cover last.span := by
  obtain ⟨first, first_there⟩ := Option.ne_none_iff_exists'.mp (mt List.head?_eq_none_iff.mp held)
  obtain ⟨last, last_there⟩ := Option.ne_none_iff_exists'.mp (mt List.getLast?_eq_none_iff.mp held)
  exact ⟨first, first_there, last, last_there, by simp only [ends, first_there, last_there]⟩

-- Both ends are met by sentences shown, so only one that sticks out can spoil the cover.
theorem ends_cover {window : Span} {shown : List Sentence} (held : shown ≠ []) :
    (ends window shown).IsCover (shown.map Sentence.span)
      ↔ ∀ x ∈ shown, (ends window shown).encloses x.span = true := by
  obtain ⟨first, first_there, last, last_there, same⟩ := ends_held window held
  have first_in : first.span ∈ shown.map Sentence.span :=
    List.mem_map_of_mem (List.mem_of_mem_head? first_there)
  have last_in : last.span ∈ shown.map Sentence.span :=
    List.mem_map_of_mem (List.mem_of_mem_getLast? last_there)
  simp only [Span.encloses_exact]
  constructor
  · intro covers x member
    exact covers.bounds (List.mem_map_of_mem member)
  · intro inside
    refine Span.isCover_exact.mpr ⟨?_, ?_, ?_⟩
    · rcases Nat.le_total first.span.start last.span.start with before | after
      · exact ⟨first.span, first_in, by simp only [same, Span.cover]; omega⟩
      · exact ⟨last.span, last_in, by simp only [same, Span.cover]; omega⟩
    · rcases Nat.le_total first.span.stop last.span.stop with inner | beyond
      · exact ⟨last.span, last_in, by simp only [same, Span.cover]; omega⟩
      · exact ⟨first.span, first_in, by simp only [same, Span.cover]; omega⟩
    · intro p listed
      obtain ⟨x, member, rfl⟩ := List.mem_map.mp listed
      exact inside x member

theorem along_first {shown : List Sentence} (along : shown.Pairwise Sentence.Along) {first x : Sentence}
    (first_there : first ∈ shown.head?) (member : x ∈ shown) : first.start ≤ x.start := by
  obtain ⟨rest, rfl⟩ := List.head?_eq_some_iff.mp first_there
  rcases List.mem_cons.mp member with rfl | later
  · exact Nat.le_refl _
  · exact ((List.pairwise_cons.mp along).1 x later).1

theorem along_last {shown : List Sentence} (along : shown.Pairwise Sentence.Along) {last x : Sentence}
    (last_there : last ∈ shown.getLast?) (member : x ∈ shown) : x.stop ≤ last.stop := by
  obtain ⟨rest, rfl⟩ := List.getLast?_eq_some_iff.mp last_there
  rcases List.mem_append.mp member with earlier | here
  · exact ((List.pairwise_append.mp along).2.2 x earlier last (by simp)).2
  · cases List.mem_singleton.mp here
    exact Nat.le_refl _

theorem ends_along {window : Span} {shown : List Sentence} (along : shown.Pairwise Sentence.Along)
    {x : Sentence} (member : x ∈ shown) : (ends window shown).encloses x.span = true := by
  obtain ⟨first, first_there, last, last_there, same⟩ := ends_held window (List.ne_nil_of_mem member)
  have from_first := along_first along first_there member
  have to_last := along_last along last_there member
  rw [Span.encloses_exact, same]
  simp only [Span.cover, Sentence.start, Sentence.stop] at *
  omega

theorem shown_along {d : Document} (window : Span) (along : d.sentences.Pairwise Sentence.Along) :
    (ofWindow d window).sentences.Pairwise Sentence.Along := by
  rw [ofWindow_sentences]
  exact along.sublist List.filter_sublist

theorem ofWindow_inside {d : Document} (window : Span) (along : d.sentences.Pairwise Sentence.Along) :
    ∀ x ∈ (ofWindow d window).sentences, (ofWindow d window).span.encloses x.span = true := by
  intro x member
  rw [ofWindow_span]
  exact ends_along (shown_along window along) member

-- The range covers the sentences it stands for unless one of them sticks out of it, which takes
-- sentences that do not run along.
theorem ofRange_cover_exact {d : Document} {start length : Nat} {s : Snippet}
    (made : ofRange d start length = .ok s) (held : s.sentences ≠ []) :
    (s.span.IsCover (s.sentences.map Sentence.span) ↔ ∀ x ∈ s.sentences, s.span.encloses x.span = true)
      ∧ (d.sentences.Pairwise Sentence.Along → s.span.IsCover (s.sentences.map Sentence.span)
        ∧ ∀ n ∈ d.notes, (∃ x ∈ s.sentences, x.span.encloses n.span = true) → n ∈ s.notes) := by
  obtain ⟨window, _, _, rfl⟩ := ofRange_parts made
  have exact_cover : (ofWindow d window).span.IsCover ((ofWindow d window).sentences.map Sentence.span)
      ↔ ∀ x ∈ (ofWindow d window).sentences, (ofWindow d window).span.encloses x.span = true := by
    rw [ofWindow_span]
    exact ends_cover held
  refine ⟨exact_cover, fun along => ?_⟩
  have inside := ofWindow_inside window along
  refine ⟨exact_cover.mpr inside, ?_⟩
  rintro n listed ⟨x, member, within⟩
  have outer := Span.encloses_exact.mp (inside x member)
  have inner := Span.encloses_exact.mp within
  exact (mem_notes rfl).mpr ⟨listed, Span.encloses_exact.mpr (by omega)⟩

-- Two lines one behind the other and a note on the second, seen through a window that ends in it.
def lined : Document :=
  (((Document.empty ⟨1⟩).addInPlace (.ofTokens [.spanning "ab" (.clamped 0 2)])).addInPlace
    (.ofTokens [.spanning "cd" (.clamped 3 2)])).addNote
      ((NoteBody.plain .mention .gold (.clamped 4 1)).named ⟨1⟩)

theorem lined_cover_exact : ∃ s, ofRange lined 1 3 = .ok s ∧ s.indices = [0, 1]
    ∧ s.span = .clamped 0 5 ∧ s.span.IsCover (s.sentences.map Sentence.span) ∧ s.notes = lined.notes := by
  let seen : Snippet := ⟨lined, [0, 1], some (.clamped 0 5)⟩
  have made : ofRange lined 1 3 = .ok seen := rfl
  obtain ⟨covers, visible⟩ := (ofRange_cover_exact made (by decide)).2 (by decide)
  refine ⟨seen, made, rfl, rfl, covers, ?_⟩
  have on_second : ∀ n ∈ lined.notes, n ∈ seen.notes := fun n listed =>
    visible n listed ⟨.ofTokens [.spanning "cd" (.clamped 3 2)], by decide, by revert n; decide⟩
  exact List.filter_eq_self.mpr fun n listed => ((mem_notes rfl).mp (on_second n listed)).2

-- A long line between two short ones that lie before its end, and a note in what sticks out.
def jutting : Document :=
  ((((Document.empty ⟨1⟩).addInPlace (.ofTokens [.spanning "ab" (.clamped 0 2)])).addInPlace
    (.ofTokens [.spanning "cdefghij" (.clamped 1 8)])).addInPlace
      (.ofTokens [.spanning "kl" (.clamped 3 2)])).addNote
        ((NoteBody.plain .mention .gold (.clamped 6 2)).named ⟨1⟩)

theorem jutting_not_covered : jutting.Reached ∧ ∃ s, ofRange jutting 0 5 = .ok s ∧ s.indices = [0, 1, 2]
    ∧ s.span = .clamped 0 5 ∧ ¬ s.span.IsCover (s.sentences.map Sentence.span)
    ∧ (∃ x ∈ s.sentences, s.span.encloses x.span = false)
    ∧ ∃ n ∈ jutting.notes, (∃ x ∈ s.sentences, x.span.encloses n.span = true) ∧ n ∉ s.notes := by
  have reached : jutting.Reached :=
    .noted (.addInPlace (.addInPlace (.addInPlace (.new _) (.ofTokens _)) (.ofTokens _)) (.ofTokens _)) _
  exact ⟨reached, ⟨jutting, [0, 1, 2], some (.clamped 0 5)⟩, rfl, rfl, rfl,
    by decide, by decide, by decide⟩

end Snippet

end Marginalia
