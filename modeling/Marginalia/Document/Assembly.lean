import Marginalia.Document.Text

namespace Marginalia.Document

-- Takes a sentence with the offsets it has.
def addInPlace (d : Document) (s : Sentence) : Document :=
  { d with
    span := if d.sentences.isEmpty then s.span else d.span.cover s.span
    sentences := d.sentences ++ [s] }

-- Moves a sentence behind the end, one position further where there are sentences before it.
-- The first sentence brings the document's start to zero.
def addAtEnd (d : Document) (s : Sentence) : Document :=
  let first := d.sentences.isEmpty
  let start := if first then 0 else d.start
  let moved := s.movedTo (if first then d.stop else d.stop + 1)
  { d with span := .clamped start (moved.stop - start), sentences := d.sentences ++ [moved] }

-- Where a sentence comes to stand when it is added at the end.
def landing (d : Document) : Nat := if d.sentences.isEmpty then d.stop else d.stop + 1

-- Adding as it is carried out: the landing is a plain sum, and so are the starts of the tokens there.
def addAtEnd? (d : Document) (s : Sentence) : Option Document :=
  if d.landing ≤ maxOffset then (s.movedTo? d.landing).map fun _ => d.addAtEnd s else none

-- Where another document begins when it is appended. A text that ends in a blank or a line
-- break needs no separator.
def joint (d : Document) : Nat :=
  if d.isEmpty then d.stop
  else match d.chars.getLast? with
    | some ' ' | some '\n' => d.stop
    | _ => d.stop + 1

def mergeTags (a b : TagTable) : TagTable :=
  b.entries.foldl (fun table entry =>
    table.insert entry.1 (Members.union ((table.find? entry.1).getD .empty) entry.2)) a

-- Everything of the other document moves by the joint; its notes come to belong here.
def append (d other : Document) : Document :=
  let delta := d.joint
  let joined := (other.sentences.map (Sentence.shifted · delta)).foldl addInPlace d
  { joined with
    notes := d.notes ++ other.notes.map fun n => (n.shifted delta).rehomed d.handle
    tags := mergeTags d.tags other.tags }

-- Appending as it is carried out: the joint is a plain sum.
def append? (d other : Document) : Option Document :=
  if d.joint ≤ maxOffset then some (d.append other) else none

-- The tree of sentences with its range, the document's own name and its provenance. Notes and
-- tags stay behind.
def copyWith (d : Document) (handle : Handle) (transform : String → String) : Document :=
  { empty handle with
    span := d.span
    sentences := d.sentences.map (Sentence.mapText transform)
    metadata := { Metadata.empty with id := d.metadata.id, provenance := d.metadata.provenance } }

def copy (d : Document) (handle : Handle) : Document := d.copyWith handle id

-- Edits the token at an index that counts across sentences.
def editSentences (edit : Token → Token) : Nat → List Sentence → List Sentence
  | _, [] => []
  | index, s :: rest =>
    if index < s.tokens.length then { s with tokens := s.tokens.modify index edit } :: rest
    else s :: editSentences edit (index - s.tokens.length) rest

def editToken (d : Document) (index : Nat) (edit : Token → Token) : Document :=
  { d with sentences := editSentences edit index d.sentences }

def cleared (d : Document) : Document := { d with sentences := [], span := .origin }

end Marginalia.Document
