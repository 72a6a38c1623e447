import Marginalia.Document

namespace Marginalia.Document

-- Notes go to the end and come to belong here. Repeated ones are kept.
def addNote (d : Document) (n : Note) : Document := { d with notes := d.notes ++ [n.rehomed d.handle] }

def addNotes (d : Document) (notes : List Note) : Document := notes.foldl addNote d

-- Drops the notes of exactly this source and exactly this kind.
def clearNotes (d : Document) (source : Source) (kind : Kind) : Document :=
  { d with notes := d.notes.filter fun n => !(n.kind == kind && n.source == source) }

-- Drops the first note of that name, and says whether there was one.
def removeNote (d : Document) (id : NoteId) : Bool × Document :=
  (d.notes.any (·.id == id), { d with notes := d.notes.eraseP (·.id == id) })

-- Taking a tag back never adds a source, and leaves the source with what remains.
def setTag (d : Document) (source : Source) (tag : String) (present : Bool) : Document :=
  match d.tags.find? source, present with
  | tags, true => { d with tags := d.tags.insert source ((tags.getD .empty).add tag) }
  | some tags, false => { d with tags := d.tags.insert source (tags.drop tag) }
  | none, false => d

def hasTag (d : Document) (source : Source) (tag : String) : Bool :=
  (d.tags.find? source).any (·.has tag)

end Marginalia.Document
