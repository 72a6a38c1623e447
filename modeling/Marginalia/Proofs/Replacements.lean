import Marginalia.Proofs.Appending
import Marginalia.Proofs.Layers

namespace Marginalia

namespace Document

theorem foldl_addInPlace_wider {d : Document} (filled : d.sentences ≠ []) (added : List Sentence) :
    (added.foldl addInPlace d).span = (added.map Sentence.span).foldl Span.cover d.span := by
  induction added generalizing d with
  | nil => rfl
  | cons s rest ih =>
    have wider : (d.addInPlace s).span = d.span.cover s.span := by simp [addInPlace, filled]
    have held : (d.addInPlace s).sentences ≠ [] := by simp
    rw [List.foldl_cons, ih held, wider, List.map_cons, List.foldl_cons]

-- The range that sentences give a document depends on nothing but theirs, once there is one.
theorem foldl_addInPlace_cover {d : Document} (bare : d.sentences = []) (added : List Sentence) :
    (added.foldl addInPlace d).span = (Span.coverAll (added.map Sentence.span)).getD d.span := by
  cases added with
  | nil => rfl
  | cons s rest =>
    have first : (d.addInPlace s).span = s.span := by simp [addInPlace, bare]
    have held : (d.addInPlace s).sentences ≠ [] := by simp
    rw [List.foldl_cons, foldl_addInPlace_wider held, first]
    rfl

theorem empty_append (handle : Handle) (other : Document) :
    ((empty handle).append other).sentences = other.sentences
      ∧ ((empty handle).append other).span = (Span.coverAll (other.sentences.map Sentence.span)).getD .origin := by
  have joint : (empty handle).joint = 0 := joint_bare (empty_derived handle) rfl
  have still : other.sentences.map (Sentence.shifted · 0) = other.sentences :=
    List.map_id'' Sentence.shifted_zero other.sentences
  constructor
  · rw [append_sentences, joint, still]
    rfl
  · rw [append, joint, still]
    exact foldl_addInPlace_cover rfl other.sentences

end Document

namespace Splitter

-- A text put in place of what a document held, next to the same text in a new document and in a query.
-- What was there before has no part in it, and what lies beside the tree stays as it was.
theorem replaced_afresh (splitter : Splitter) (text : String) (d : Document) (s t u v : Supply) :
    (match splitter.sentences text with
      | .ok sentences => ∃ fresh query, (splitter.document text t).1 = .ok fresh
          ∧ (Query.ofText splitter text u).1 = .ok query
          ∧ (splitter.replace text d s).1.1 = .ok ()
          ∧ fresh.sentences = sentences
          ∧ fresh.span = (Span.coverAll (sentences.map Sentence.span)).getD .origin
          ∧ fresh.SameTree (splitter.replace text d s).1.2
          ∧ query.document.SameTree (splitter.replace text d s).1.2
      | .error fault => (splitter.document text t).1 = .error fault
          ∧ (Query.ofText splitter text u).1 = .error fault
          ∧ (splitter.replace text d s).1 = (.error fault, { d with sentences := [], span := .origin })
          ∧ (splitter.extend text d v).1 = (.error fault, d))
      ∧ d.SameOverlay (splitter.replace text d s).1.2
      ∧ d.SameOverlay (splitter.extend text d v).1.2 := by
  refine ⟨?_, splitter.replace_overlay text d s, splitter.extend_overlay text d v⟩
  cases cut : splitter.sentences text with
  | error fault =>
    exact ⟨splitter.document_refused cut t, Query.ofText_refused splitter cut u,
      splitter.extend_refused cut d.cleared s, splitter.extend_refused cut d v⟩
  | ok sentences =>
    have replaced := splitter.extend_accepted cut d.cleared s
    have held := gathered_sentences sentences
    obtain ⟨kept, covered⟩ := Document.empty_append ⟨t.handle⟩ (gathered sentences ⟨t.handle + 1⟩)
    have same (start : Handle) (made : Document) (there : made.sentences = sentences) :
        ((Document.empty start).append made).SameTree (splitter.replace text d s).1.2 := by
      rw [replace, replaced]
      exact Document.append_tree (d := Document.empty start) (e := d.cleared) ⟨rfl, rfl⟩
        ((held _).trans there.symm)
    refine ⟨_, _, splitter.document_accepted cut t, Query.ofText_accepted splitter cut u, ?_, ?_, ?_,
      same _ _ (held _), same _ _ (held _)⟩
    · rw [replace, replaced]
    · rw [kept, held]
    · rw [covered, held]

end Splitter

end Marginalia
