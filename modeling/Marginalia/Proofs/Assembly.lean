import Marginalia.Query
import Marginalia.Record

namespace Marginalia

namespace Sentence

theorem movedTo?_exact {s moved : Sentence} {start : Nat} : s.movedTo? start = some moved ↔
    (∀ t ∈ s.tokens, start + (t.start - s.start) ≤ maxOffset) ∧ moved = s.movedTo start := by
  unfold movedTo?
  split
  · rename_i fits
    simp only [List.all_eq_true, decide_eq_true_eq] at fits
    exact ⟨fun made => ⟨fits, (Option.some.inj made).symm⟩, fun ⟨_, same⟩ => same ▸ rfl⟩
  · rename_i passes
    simp only [List.all_eq_true, decide_eq_true_eq] at passes
    exact ⟨nofun, fun ⟨fits, _⟩ => absurd fits passes⟩

end Sentence

namespace Document

-- Where every sum stays below the limit, what is carried out is what the plain operation makes.
theorem addAtEnd?_exact {d e : Document} {s : Sentence} : d.addAtEnd? s = some e ↔
    d.landing ≤ maxOffset ∧ (∀ t ∈ s.tokens, d.landing + (t.start - s.start) ≤ maxOffset)
      ∧ e = d.addAtEnd s := by
  unfold addAtEnd?
  split
  · next lands =>
    simp only [Option.map_eq_some_iff, Sentence.movedTo?_exact]
    constructor
    · rintro ⟨_, ⟨fits, _⟩, same⟩
      exact ⟨lands, fits, same.symm⟩
    · rintro ⟨_, fits, same⟩
      exact ⟨_, ⟨fits, rfl⟩, same.symm⟩
  · next passes => exact ⟨nofun, fun ⟨lands, _⟩ => absurd lands passes⟩

theorem addAtEnd?_made {d e : Document} {s : Sentence} (made : d.addAtEnd? s = some e) : e = d.addAtEnd s :=
  (addAtEnd?_exact.mp made).2.2

theorem append?_exact {d e other : Document} :
    d.append? other = some e ↔ d.joint ≤ maxOffset ∧ e = d.append other := by
  unfold append?
  split
  · next joins => exact ⟨fun made => ⟨joins, (Option.some.inj made).symm⟩, fun ⟨_, same⟩ => same ▸ rfl⟩
  · next passes => exact ⟨nofun, fun ⟨joins, _⟩ => absurd joins passes⟩

theorem append?_made {d e other : Document} (made : d.append? other = some e) : e = d.append other :=
  (append?_exact.mp made).2

@[simp] theorem addInPlace_sentences (d : Document) (s : Sentence) :
    (d.addInPlace s).sentences = d.sentences ++ [s] := rfl

theorem foldl_addInPlace_sentences (d : Document) (added : List Sentence) :
    (added.foldl addInPlace d).sentences = d.sentences ++ added := by
  induction added generalizing d with
  | nil => simp
  | cons s rest ih => simp [ih]

theorem foldl_addInPlace_handle (d : Document) (added : List Sentence) :
    (added.foldl addInPlace d).handle = d.handle := by
  induction added generalizing d with
  | nil => rfl
  | cons s rest ih => exact ih (d.addInPlace s)

@[simp] theorem append_sentences (d other : Document) :
    (d.append other).sentences = d.sentences ++ other.sentences.map (Sentence.shifted · d.joint) :=
  foldl_addInPlace_sentences d _

@[simp] theorem append_tokens (d other : Document) :
    (d.append other).tokens = d.tokens ++ other.tokens.map (Token.shifted · d.joint) := by
  simp [tokens, List.flatMap_map, List.map_flatMap, Sentence.shifted]

@[simp] theorem append_handle (d other : Document) : (d.append other).handle = d.handle :=
  foldl_addInPlace_handle d _

theorem append_notes (d other : Document) : (d.append other).notes
    = d.notes ++ other.notes.map fun n => (n.shifted d.joint).rehomed d.handle := rfl

theorem addNotes_tree (d : Document) (notes : List Note) :
    (d.addNotes notes).span = d.span ∧ (d.addNotes notes).sentences = d.sentences := by
  induction notes generalizing d with
  | nil => exact ⟨rfl, rfl⟩
  | cons n rest ih => exact ih (d.addNote n)

theorem addNotes_handle (d : Document) (notes : List Note) : (d.addNotes notes).handle = d.handle := by
  induction notes generalizing d with
  | nil => rfl
  | cons n rest ih => exact ih (d.addNote n)

theorem addNotes_exact (d : Document) (notes : List Note) :
    d.addNotes notes = { d with notes := d.notes ++ notes.map (·.rehomed d.handle) } := by
  induction notes generalizing d with
  | nil => simp [addNotes]
  | cons n rest ih =>
    have later := ih (d.addNote n)
    rw [show d.addNotes (n :: rest) = (d.addNote n).addNotes rest from rfl, later]
    simp [addNote]

theorem record_document_tree (d : Document) (handle : Handle) :
    (d.record.document handle).span = d.span ∧ (d.record.document handle).sentences = d.sentences :=
  addNotes_tree _ _

end Document

namespace Record

-- New names change nothing that a note says and use up no handle.
theorem fresh_notes (bodies : List NoteBody) (supply : Supply) :
    (bodies.mapM NoteBody.fresh supply).1.map Note.toNoteBody = bodies
      ∧ (bodies.mapM NoteBody.fresh supply).2.handle = supply.handle := by
  induction bodies generalizing supply with
  | nil => exact ⟨rfl, rfl⟩
  | cons body rest ih =>
    obtain ⟨same, handle⟩ := ih (NoteBody.fresh body supply).2
    rw [List.mapM_cons]
    exact ⟨congrArg (body :: ·) same, handle⟩

end Record

namespace Splitter

-- The sentences of a text, gathered in a document of their own.
def gathered (sentences : List Sentence) (handle : Handle) : Document :=
  sentences.foldl .addInPlace (.empty handle)

theorem gathered_sentences (sentences : List Sentence) (handle : Handle) :
    (gathered sentences handle).sentences = sentences :=
  (Document.foldl_addInPlace_sentences _ _).trans (List.nil_append _)

theorem extend_accepted (splitter : Splitter) {text : String} {sentences : List Sentence}
    (accepted : splitter.sentences text = .ok sentences) (d : Document) (supply : Supply) :
    (splitter.extend text d supply).1 = (.ok (), d.append (gathered sentences ⟨supply.handle⟩)) := by
  unfold extend
  simp only [accepted]
  rfl

theorem extend_refused (splitter : Splitter) {text : String} {fault : Fault}
    (refused : splitter.sentences text = .error fault) (d : Document) (supply : Supply) :
    (splitter.extend text d supply).1 = (.error fault, d) := by
  unfold extend
  simp only [refused]
  rfl

theorem extend?_made (splitter : Splitter) {text : String} {d : Document} {supply : Supply}
    {outcome : Except Fault Unit × Document} (made : (splitter.extend? text d supply).1 = some outcome) :
    outcome = (splitter.extend text d supply).1 := by
  cases cut : splitter.sentences text with
  | error fault =>
    have told : (splitter.extend? text d supply).1 = some (.error fault, d) := by
      unfold extend?
      simp only [cut]
      rfl
    rw [splitter.extend_refused cut]
    exact Option.some.inj (made.symm.trans told)
  | ok sentences =>
    have told : (splitter.extend? text d supply).1
        = (d.append? (gathered sentences ⟨supply.handle⟩)).map fun e => (.ok (), e) := by
      unfold extend?
      simp only [cut]
      rfl
    obtain ⟨e, appended, same⟩ := Option.map_eq_some_iff.mp (told.symm.trans made)
    rw [splitter.extend_accepted cut, ← same, Document.append?_made appended]

theorem document_accepted (splitter : Splitter) {text : String} {sentences : List Sentence}
    (accepted : splitter.sentences text = .ok sentences) (supply : Supply) :
    (splitter.document text supply).1 =
      .ok ((Document.empty ⟨supply.handle⟩).append (gathered sentences ⟨supply.handle + 1⟩)) := by
  unfold document extend
  simp only [accepted]
  rfl

theorem document_refused (splitter : Splitter) {text : String} {fault : Fault}
    (refused : splitter.sentences text = .error fault) (supply : Supply) :
    (splitter.document text supply).1 = .error fault := by
  unfold document extend
  simp only [refused]
  rfl

end Splitter

namespace Query

theorem ofText_accepted (splitter : Splitter) {text : String} {sentences : List Sentence}
    (accepted : splitter.sentences text = .ok sentences) (supply : Supply) :
    (ofText splitter text supply).1 =
      .ok ⟨(Document.empty ⟨supply.handle⟩).append (Splitter.gathered sentences ⟨supply.handle + 1⟩), []⟩ := by
  unfold ofText Splitter.extend
  simp only [accepted]
  rfl

theorem ofText_refused (splitter : Splitter) {text : String} {fault : Fault}
    (refused : splitter.sentences text = .error fault) (supply : Supply) :
    (ofText splitter text supply).1 = .error fault := by
  unfold ofText Splitter.extend
  simp only [refused]
  rfl

end Query

end Marginalia
