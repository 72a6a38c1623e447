import Marginalia.Document.Notes

namespace Marginalia

-- All that a document holds but its handle and its provenance. `ν` is what the record knows of
-- a note: the note itself, or only its body in a record that was read.
structure Record (ν : Type) where
  id : Option String
  language : Option String
  docType : Option String
  heading : Option Heading
  span : Span
  sentences : List Sentence
  notes : List ν
  tags : TagTable
deriving DecidableEq

namespace Record

def metadata {ν : Type} (r : Record ν) : Metadata :=
  ⟨r.id, r.language, r.docType, r.heading, none⟩

def bodies (r : Record Note) : Record NoteBody := { r with notes := r.notes.map Note.toNoteBody }

-- The notes keep their names and come to belong to the new document.
def document (r : Record Note) (handle : Handle) : Document :=
  Document.addNotes ⟨handle, r.span, r.sentences, [], r.metadata, r.tags⟩ r.notes

-- The notes get new names in their order.
def freshDocument (r : Record NoteBody) : Naming Document := do
  let notes ← r.notes.mapM NoteBody.fresh
  let handle ← Supply.freshHandle
  return document { r with notes } handle

end Record

namespace Document

def record (d : Document) : Record Note :=
  ⟨d.metadata.id, d.metadata.language, d.metadata.docType, d.metadata.heading, d.span,
    d.sentences, d.notes, d.tags⟩

end Document

end Marginalia
