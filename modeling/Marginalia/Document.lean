import Marginalia.Keyed
import Marginalia.Overlay
import Marginalia.Sentence

namespace Marginalia

-- The title and the abstract of a document that has a summary section.
structure Heading where
  title : Option String
  summary : Option String
deriving DecidableEq

-- What is known of a document besides its text. The provenance is kept unread.
structure Metadata where
  id : Option String
  language : Option String
  docType : Option String
  heading : Option Heading
  provenance : Option String
deriving DecidableEq

abbrev TagTable := Keyed Source (Members String)

-- Sentences in order and notes beside them. The text is not stored: the tokens describe it.
structure Document where
  handle : Handle
  span : Span
  sentences : List Sentence
  notes : List Note
  metadata : Metadata
  tags : TagTable

namespace Metadata

def empty : Metadata := ⟨none, none, none, none, none⟩

def title? (m : Metadata) : Option String := m.heading.bind Heading.title

def summary? (m : Metadata) : Option String := m.heading.bind Heading.summary

-- Either part of a heading brings the heading into being.
def withTitle (m : Metadata) (title : String) : Metadata :=
  { m with heading := some ⟨some title, m.summary?⟩ }

def withSummary (m : Metadata) (summary : String) : Metadata :=
  { m with heading := some ⟨m.title?, some summary⟩ }

end Metadata

namespace Document

def empty (handle : Handle) : Document := ⟨handle, .origin, [], [], .empty, .empty⟩

def fresh : Naming Document := do return empty (← Supply.freshHandle)

def start (d : Document) : Nat := d.span.start

def stop (d : Document) : Nat := d.span.stop

def tokens (d : Document) : List Token := d.sentences.flatMap Sentence.tokens

-- No token at all; there may be sentences.
def isEmpty (d : Document) : Bool := d.tokens.isEmpty

instance : Overlay Document := ⟨notes⟩

-- Equal in range, language, type, sentences, notes and tags. Names, headings and provenance are
-- not compared.
def same (a b : Document) : Bool :=
  a.span == b.span && a.metadata.language == b.metadata.language
    && a.metadata.docType == b.metadata.docType && a.sentences.isEqv b.sentences Sentence.same
    && a.notes.isEqv b.notes Note.same && a.tags == b.tags

end Document

end Marginalia
