import Marginalia.Chance
import Marginalia.Document.Lookup
import Marginalia.Document.Notes
import Marginalia.Document.Text
import Marginalia.Fault

namespace Marginalia

-- Some sentences of a document, by index, and the range they stand for. Sentences listed one
-- by one stand for no range.
structure Selection where
  document : Handle
  indices : List Nat
  span : Option Span
deriving DecidableEq

-- A selection together with the document it was taken from.
structure Snippet where
  source : Document
  indices : List Nat
  span? : Option Span

namespace Snippet

def selection (s : Snippet) : Selection := ⟨s.source.handle, s.indices, s.span?⟩

-- The sentences that overlap a window, and the range from the first to the last of them. If
-- there is none the window itself is the range.
def ofRange (d : Document) (start length : Nat) : Except RangeFault Snippet := do
  let window ← Span.measured start length
  let chosen := d.sentences.zipIdx.filter fun item =>
    Policy.overlapping.selects window.window item.1.span
  let span := match chosen.head?, chosen.getLast? with
    | some first, some last => first.1.span.cover last.1.span
    | _, _ => window
  return ⟨d, chosen.map (·.2), some span⟩

def checkIndices (d : Document) : List Nat → Except RangeFault Unit
  | [] => .ok ()
  | index :: rest => do
    let _ ← d.sentence index
    checkIndices d rest

def ofSentences (d : Document) (indices : List Nat) : Except RangeFault Snippet := do
  checkIndices d indices
  return ⟨d, indices, none⟩

-- The listed sentences in an order drawn from the generator, and the state the generator is left
-- in: it is not asked if an index is refused. Absent if the generator never comes to an end.
def shuffledWith {σ : Type} (g : Generator σ) (d : Document) (indices : List Nat) (state : σ) :
    Option (Except RangeFault Snippet × σ) :=
  match ofSentences d indices with
  | .error fault => some (.error fault, state)
  | .ok s => (g.shuffle indices state).map fun (indices, state) => (.ok { s with indices }, state)

-- The same by its outcome, where a refusal leaves no state to tell.
def shuffled {σ : Type} (g : Generator σ) (d : Document) (indices : List Nat) (state : σ) :
    Except RangeFault (Option (Snippet × σ)) :=
  match shuffledWith g d indices state with
  | some (.error fault, _) => .error fault
  | some (.ok s, state) => .ok (some (s, state))
  | none => .ok none

-- Refuses to hold more sentences than the limit, if there is one.
def limited (s : Snippet) (limit : Option Nat) : Except Fault Snippet :=
  match limit with
  | some limit =>
    if limit < s.indices.length then .error (.snippetTooLarge s.indices.length limit) else .ok s
  | none => .ok s

def addSentence (s : Snippet) (index : Nat) : Except RangeFault Snippet := do
  let _ ← s.source.sentence index
  return { s with indices := s.indices ++ [index] }

def sentences (s : Snippet) : List Sentence := s.indices.filterMap (s.source.sentences[·]?)

def tokens (s : Snippet) : List Token := s.sentences.flatMap Sentence.tokens

def isEmpty (s : Snippet) : Bool := s.tokens.isEmpty

def span (s : Snippet) : Span := s.span?.getD .origin

-- Within a range the tokens' offsets count; listed sentences are joined by blanks.
def text (s : Snippet) : String :=
  match s.span? with
  | some span => Layout.text span.start s.tokens
  | none => " ".intercalate (s.sentences.map Sentence.text)

-- The source's notes that lie in the range. Without a range none is seen.
def notes (s : Snippet) : List Note :=
  match s.span? with
  | some span => s.source.notes.filter fun n => span.encloses n.span
  | none => []

instance : Overlay Snippet := ⟨notes⟩

end Snippet

namespace Selection

-- A selection fits the very document it was taken from, told by the handle.
def check (s : Selection) (d : Document) : Except Fault Unit :=
  if d.handle = s.document then .ok () else .error (.foreignDocument s.document d.handle)

def view (s : Selection) (d : Document) : Except Fault Snippet := do
  s.check d
  return ⟨d, s.indices, s.span⟩

def addNote (s : Selection) (d : Document) (n : Note) : Except Fault Document := do
  s.check d
  return d.addNote n

def addNotes (s : Selection) (d : Document) (notes : List Note) : Except Fault Document := do
  s.check d
  return d.addNotes notes

end Selection

end Marginalia
