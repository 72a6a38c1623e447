namespace Marginalia

-- Names a document. It finds a document and never holds one.
structure Handle where
  number : Nat
deriving DecidableEq

-- Names a note. Copies of a note share it.
structure NoteId where
  number : Nat
deriving DecidableEq

-- The next handle and the next note name. Both only grow, so no name is given out twice.
structure Supply where
  handle : Nat
  note : Nat
deriving DecidableEq

abbrev Naming := StateM Supply

namespace Supply

def initial : Supply := ⟨1, 1⟩

def freshHandle : Naming Handle := fun s => (⟨s.handle⟩, { s with handle := s.handle + 1 })

def freshNote : Naming NoteId := fun s => (⟨s.note⟩, { s with note := s.note + 1 })

end Supply

def Handle.render (h : Handle) : String := s!"doc#{h.number}"

end Marginalia
