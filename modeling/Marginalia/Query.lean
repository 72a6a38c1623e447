import Marginalia.Document.Assembly
import Marginalia.Document.Notes
import Marginalia.Splitter

namespace Marginalia

-- A hit: a document and the note that says where in it.
structure Hit where
  document : Document
  note : Note

namespace Hit

def relevance (h : Hit) : Binary .double := h.note.confidence

-- Higher relevance first and what is no number last; then by document, then by note.
def order (a b : Hit) : Ordering :=
  let relevance := match a.relevance.rank?, b.relevance.rank? with
    | some x, some y => compare y x
    | some _, none => .lt
    | none, some _ => .gt
    | none, none => .eq
  (relevance.then (compare a.document.handle.number b.document.handle.number)).then
    (compare a.note.id.number b.note.id.number)

-- The same document, by name or by value, and notes of the same range and kind.
def agrees (a b : Hit) : Bool :=
  (a.document.handle == b.document.handle || a.document.same b.document) && a.note.agrees b.note

end Hit

-- A document asked as a question, with the hits for it in ranking order.
structure Query where
  document : Document
  hits : List Hit

namespace Query

def fresh : Naming Query := do return ⟨← Document.fresh, []⟩

def ofText (s : Splitter) (text : String) : Naming (Except Fault Query) := do
  let q ← fresh
  let (done, d) ← s.extend text q.document
  return done.map fun _ => ⟨d, []⟩

-- Puts a hit where it ranks. A hit that ranks exactly as one already there is dropped.
def place (hit : Hit) : List Hit → Bool × List Hit
  | [] => (true, [hit])
  | first :: rest => match hit.order first with
    | .lt => (true, hit :: first :: rest)
    | .eq => (false, first :: rest)
    | .gt =>
      let (added, rest) := place hit rest
      (added, first :: rest)

-- The note comes to belong to the document it is a hit in.
def addHit (q : Query) (d : Document) (n : Note) : Bool × Query :=
  let (added, hits) := place ⟨d, n.rehomed d.handle⟩ q.hits
  (added, { q with hits })

def hitsBySource (q : Query) (source : Source) : List Hit := q.hits.filter (·.note.source == source)

-- The first note of exactly this kind on the query itself.
def note (q : Query) (kind : Kind) : Except Fault Note :=
  match (Overlay.ofKind q.document kind false).head? with
  | some n => .ok n
  | none => .error (.noNote kind)

end Query

end Marginalia
