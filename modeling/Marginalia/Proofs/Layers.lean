import Marginalia.Proofs.Homes
import Marginalia.Proofs.Texts
import Marginalia.Snippet

namespace Marginalia

namespace Document

-- The same sentences in the same range, which is all that a text is read off.
structure SameTree (d e : Document) : Prop where
  span : e.span = d.span
  sentences : e.sentences = d.sentences

-- The same in all that lies beside the tree.
structure SameOverlay (d e : Document) : Prop where
  handle : e.handle = d.handle
  notes : e.notes = d.notes
  metadata : e.metadata = d.metadata
  tags : e.tags = d.tags

theorem same_parts {d e : Document} (tree : d.SameTree e) (overlay : d.SameOverlay e) : e = d := by
  obtain ⟨span, sentences⟩ := tree
  obtain ⟨handle, notes, metadata, tags⟩ := overlay
  cases d
  cases e
  simp_all

theorem SameTree.refl (d : Document) : d.SameTree d := ⟨rfl, rfl⟩

theorem SameTree.trans {d e f : Document} (first : d.SameTree e) (second : e.SameTree f) : d.SameTree f :=
  ⟨second.span.trans first.span, second.sentences.trans first.sentences⟩

theorem SameOverlay.refl (d : Document) : d.SameOverlay d := ⟨rfl, rfl, rfl, rfl⟩

theorem SameOverlay.trans {d e f : Document} (first : d.SameOverlay e) (second : e.SameOverlay f) :
    d.SameOverlay f :=
  ⟨second.handle.trans first.handle, second.notes.trans first.notes,
    second.metadata.trans first.metadata, second.tags.trans first.tags⟩

section Tree

variable {d e : Document}

theorem SameTree.joint (same : d.SameTree e) : e.joint = d.joint := by
  unfold Document.joint isEmpty tokens stop
  rw [chars_of_tree same.span same.sentences, same.span, same.sentences]

theorem addInPlace_tree (same : d.SameTree e) (s : Sentence) : (d.addInPlace s).SameTree (e.addInPlace s) := by
  constructor <;> simp only [addInPlace, same.span, same.sentences]

theorem addAtEnd_tree (same : d.SameTree e) (s : Sentence) : (d.addAtEnd s).SameTree (e.addAtEnd s) := by
  constructor <;> simp only [addAtEnd, start, stop, same.span, same.sentences]

theorem foldl_addInPlace_tree (same : d.SameTree e) (added : List Sentence) :
    (added.foldl addInPlace d).SameTree (added.foldl addInPlace e) := by
  induction added generalizing d e with
  | nil => exact same
  | cons s rest ih => exact ih (addInPlace_tree same s)

-- Of the other document only the sentences count.
theorem append_tree (same : d.SameTree e) {x y : Document} (sentences : y.sentences = x.sentences) :
    (d.append x).SameTree (e.append y) := by
  have joined := foldl_addInPlace_tree same (x.sentences.map (Sentence.shifted · d.joint))
  constructor
  · simpa only [append, sentences, same.joint] using joined.span
  · simpa only [append, sentences, same.joint] using joined.sentences

theorem editToken_tree (same : d.SameTree e) (index : Nat) (edit : Token → Token) :
    (d.editToken index edit).SameTree (e.editToken index edit) :=
  ⟨same.span, congrArg (editSentences edit index) same.sentences⟩

end Tree

section Beside

theorem foldl_addInPlace_overlay (d : Document) (added : List Sentence) :
    d.SameOverlay (added.foldl addInPlace d) := by
  induction added generalizing d with
  | nil => exact .refl d
  | cons s rest ih =>
    have step : d.SameOverlay (d.addInPlace s) := ⟨rfl, rfl, rfl, rfl⟩
    exact step.trans (ih (d.addInPlace s))

-- A document that brings no notes and no tags changes none.
theorem append_overlay (d : Document) {other : Document} (notes : other.notes = []) (tags : other.tags = .empty) :
    d.SameOverlay (d.append other) := by
  have joined := foldl_addInPlace_overlay d (other.sentences.map (Sentence.shifted · d.joint))
  refine ⟨joined.handle, ?_, joined.metadata, ?_⟩
  · simp only [append, notes, List.map_nil, List.append_nil]
  · simp only [append, tags]
    rfl

end Beside

-- What is left of a document by an operation that may be refused.
def after (d : Document) : Except Fault Document → Document
  | .ok e => e
  | .error _ => d

end Document

namespace Splitter

variable (splitter : Splitter) (text : String)

theorem extend_tree {d e : Document} (same : d.SameTree e) (s t : Supply) :
    (splitter.extend text d s).1.2.SameTree (splitter.extend text e t).1.2 := by
  cases cut : splitter.sentences text with
  | error fault =>
    rw [splitter.extend_refused cut, splitter.extend_refused cut]
    exact same
  | ok sentences =>
    rw [splitter.extend_accepted cut, splitter.extend_accepted cut]
    apply Document.append_tree same
    simp only [gathered, Document.foldl_addInPlace_sentences, Document.empty]

-- The document in which the new sentences are gathered has nothing beside them.
theorem extend_overlay (d : Document) (supply : Supply) :
    d.SameOverlay (splitter.extend text d supply).1.2 := by
  cases cut : splitter.sentences text with
  | error fault =>
    rw [splitter.extend_refused cut]
    exact .refl d
  | ok sentences =>
    have bare := Document.foldl_addInPlace_overlay (.empty ⟨supply.handle⟩) sentences
    rw [splitter.extend_accepted cut]
    exact Document.append_overlay d bare.notes bare.tags

theorem replace_overlay (d : Document) (supply : Supply) :
    d.SameOverlay (splitter.replace text d supply).1.2 := by
  have reset : d.SameOverlay d.cleared := ⟨rfl, rfl, rfl, rfl⟩
  exact reset.trans (splitter.extend_overlay text d.cleared supply)

end Splitter

namespace Selection

theorem addNote_exact (s : Selection) (d : Document) (n : Note) : s.addNote d n =
    if d.handle = s.document then .ok (d.addNote n) else .error (.foreignDocument s.document d.handle) := by
  unfold addNote check
  split <;> rfl

theorem addNotes_exact (s : Selection) (d : Document) (notes : List Note) : s.addNotes d notes =
    if d.handle = s.document then .ok (d.addNotes notes) else .error (.foreignDocument s.document d.handle) := by
  unfold addNotes check
  split <;> rfl

end Selection

-- What can be done to the sentences of a document. An edit may give a token a new range as well.
inductive TreeEdit where
  | addAtEnd (s : Sentence)
  | addInPlace (s : Sentence)
  | replace (splitter : Splitter) (text : String)
  | extend (splitter : Splitter) (text : String)
  | editToken (index : Nat) (edit : Token → Token)

-- What can be done beside them. Whatever sets metadata is a change of them.
inductive OverlayEdit where
  | addNote (n : Note)
  | addNotes (notes : List Note)
  | forwardNote (s : Selection) (n : Note)
  | forwardNotes (s : Selection) (notes : List Note)
  | removeNote (id : NoteId)
  | clearNotes (source : Source) (kind : Kind)
  | setTag (source : Source) (tag : String) (present : Bool)
  | describe (change : Metadata → Metadata)

-- Refused or not, an edit leaves a document.
def TreeEdit.apply : TreeEdit → Document → Naming Document
  | .addAtEnd s, d => return d.addAtEnd s
  | .addInPlace s, d => return d.addInPlace s
  | .replace splitter text, d => Prod.snd <$> splitter.replace text d
  | .extend splitter text, d => Prod.snd <$> splitter.extend text d
  | .editToken index edit, d => return d.editToken index edit

def OverlayEdit.apply : OverlayEdit → Document → Document
  | .addNote n, d => d.addNote n
  | .addNotes notes, d => d.addNotes notes
  | .forwardNote s n, d => d.after (s.addNote d n)
  | .forwardNotes s notes, d => d.after (s.addNotes d notes)
  | .removeNote id, d => (d.removeNote id).2
  | .clearNotes source kind, d => d.clearNotes source kind
  | .setTag source tag present, d => d.setTag source tag present
  | .describe change, d => { d with metadata := change d.metadata }

namespace Document

-- Edits of either sort, one after the other.
def editAll : List (TreeEdit ⊕ OverlayEdit) → Document → Naming Document
  | [], d => return d
  | .inl edit :: rest, d => do editAll rest (← edit.apply d)
  | .inr edit :: rest, d => editAll rest (edit.apply d)

end Document

namespace TreeEdit

variable (edit : TreeEdit)

theorem apply_tree {d e : Document} (same : d.SameTree e) (s t : Supply) :
    (edit.apply d s).1.SameTree (edit.apply e t).1 := by
  cases edit with
  | addAtEnd added => exact Document.addAtEnd_tree same added
  | addInPlace added => exact Document.addInPlace_tree same added
  | replace splitter text => exact splitter.extend_tree text (d := d.cleared) (e := e.cleared) ⟨rfl, rfl⟩ s t
  | extend splitter text => exact splitter.extend_tree text same s t
  | editToken index edit => exact Document.editToken_tree same index edit

theorem apply_overlay (d : Document) (supply : Supply) : d.SameOverlay (edit.apply d supply).1 := by
  cases edit with
  | addAtEnd added => exact ⟨rfl, rfl, rfl, rfl⟩
  | addInPlace added => exact ⟨rfl, rfl, rfl, rfl⟩
  | replace splitter text => exact splitter.replace_overlay text d supply
  | extend splitter text => exact splitter.extend_overlay text d supply
  | editToken index edit => exact ⟨rfl, rfl, rfl, rfl⟩

end TreeEdit

namespace OverlayEdit

open Document

variable (edit : OverlayEdit)

theorem apply_tree (d : Document) : d.SameTree (edit.apply d) := by
  cases edit with
  | addNote n => exact ⟨rfl, rfl⟩
  | addNotes notes => exact ⟨(addNotes_tree d notes).1, (addNotes_tree d notes).2⟩
  | forwardNote s n =>
    simp only [apply, Selection.addNote_exact]
    split
    · exact ⟨rfl, rfl⟩
    · exact .refl d
  | forwardNotes s notes =>
    simp only [apply, Selection.addNotes_exact]
    split
    · exact ⟨(addNotes_tree d notes).1, (addNotes_tree d notes).2⟩
    · exact .refl d
  | removeNote id => exact ⟨rfl, rfl⟩
  | clearNotes source kind => exact ⟨rfl, rfl⟩
  | setTag source tag present => exact ⟨(setTag_tree d source tag present).1, (setTag_tree d source tag present).2⟩
  | describe change => exact ⟨rfl, rfl⟩

theorem addNotes_overlay {d e : Document} (same : d.SameOverlay e) (notes : List Note) :
    (d.addNotes notes).SameOverlay (e.addNotes notes) := by
  rw [addNotes_exact, addNotes_exact]
  refine ⟨same.handle, ?_, same.metadata, same.tags⟩
  simp only [same.notes, same.handle]

theorem setTag_overlay {d e : Document} (same : d.SameOverlay e) (source : Source) (tag : String) (present : Bool) :
    (d.setTag source tag present).SameOverlay (e.setTag source tag present) := by
  obtain ⟨handle, notes, metadata, tags⟩ := same
  unfold Document.setTag
  rw [tags]
  split
  · exact ⟨handle, notes, metadata, rfl⟩
  · exact ⟨handle, notes, metadata, rfl⟩
  · exact ⟨handle, notes, metadata, tags⟩

theorem apply_overlay {d e : Document} (same : d.SameOverlay e) : (edit.apply d).SameOverlay (edit.apply e) := by
  cases edit with
  | addNote n => exact addNotes_overlay same [n]
  | addNotes notes => exact addNotes_overlay same notes
  | forwardNote s n =>
    simp only [apply, Selection.addNote_exact, same.handle]
    split
    · exact addNotes_overlay same [n]
    · exact same
  | forwardNotes s notes =>
    simp only [apply, Selection.addNotes_exact, same.handle]
    split
    · exact addNotes_overlay same notes
    · exact same
  | removeNote id =>
    have notes := congrArg (List.eraseP fun n : Note => n.id == id) same.notes
    exact ⟨same.handle, notes, same.metadata, same.tags⟩
  | clearNotes source kind => exact ⟨same.handle, congrArg (List.filter _) same.notes, same.metadata, same.tags⟩
  | setTag source tag present => exact setTag_overlay same source tag present
  | describe change => exact ⟨same.handle, same.notes, congrArg change same.metadata, same.tags⟩

end OverlayEdit

namespace Document

-- The tree goes on from equal trees, whatever lies beside them, so what is done beside can be left out.
theorem editAll_tree (edits : List (TreeEdit ⊕ OverlayEdit)) {d e : Document} (same : d.SameTree e) (s t : Supply) :
    (editAll (edits.filter Sum.isLeft) d s).1.SameTree (editAll edits e t).1 := by
  induction edits generalizing d e s t with
  | nil => exact same
  | cons edit rest ih =>
    cases edit with
    | inl edit => exact ih (edit.apply_tree same s t) _ _
    | inr edit => exact ih (same.trans (edit.apply_tree e)) s t

theorem editAll_overlay (edits : List (TreeEdit ⊕ OverlayEdit)) {d e : Document} (same : d.SameOverlay e)
    (s t : Supply) : (editAll (edits.filter Sum.isRight) d s).1.SameOverlay (editAll edits e t).1 := by
  induction edits generalizing d e s t with
  | nil => exact same
  | cons edit rest ih =>
    cases edit with
    | inl edit => exact ih (same.trans (edit.apply_overlay e t)) s _
    | inr edit => exact ih (edit.apply_overlay same) s t

-- What edits leave of a document, with names from a supply.
def edited (edits : List (TreeEdit ⊕ OverlayEdit)) (d : Document) (supply : Supply) : Document :=
  (editAll edits d supply).1

-- Whichever way edits of both sorts are mixed, either sort ends as it would alone. The runs take
-- names from supplies of their own, so the handles of documents that pass play no part.
theorem edits_apart (edits : List (TreeEdit ⊕ OverlayEdit)) (d : Document) (mixed alone beside : Supply) :
    ((edited edits d mixed).sentences = (edited (edits.filter Sum.isLeft) d alone).sentences
        ∧ (edited edits d mixed).span = (edited (edits.filter Sum.isLeft) d alone).span
        ∧ (edited edits d mixed).text = (edited (edits.filter Sum.isLeft) d alone).text
        ∧ ∀ s, (edited edits d mixed).textAt s = (edited (edits.filter Sum.isLeft) d alone).textAt s)
      ∧ (edited edits d mixed).notes = (edited (edits.filter Sum.isRight) d beside).notes
      ∧ (edited edits d mixed).tags = (edited (edits.filter Sum.isRight) d beside).tags
      ∧ (edited edits d mixed).metadata = (edited (edits.filter Sum.isRight) d beside).metadata
      ∧ (edited edits d mixed).handle = (edited (edits.filter Sum.isRight) d beside).handle := by
  have tree := editAll_tree edits (.refl d) alone mixed
  have overlay := editAll_overlay edits (.refl d) beside mixed
  refine ⟨⟨tree.sentences, tree.span, ?_, ?_⟩, overlay.notes, overlay.tags, overlay.metadata, overlay.handle⟩
  · exact congrArg String.ofList (chars_of_tree tree.span tree.sentences)
  · exact textAt_of_tree tree.span tree.sentences

end Document

end Marginalia
