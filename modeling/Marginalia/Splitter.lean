import Marginalia.Document.Assembly
import Marginalia.Fault
import Marginalia.Segmenting

namespace Marginalia

-- Cuts raw text into sentences whose tokens carry offsets into that text, or refuses it.
structure Splitter where
  sentences : String → Except Fault (List Sentence)

namespace Splitter

def ofSegmenting (s : Segmenting) : Splitter := ⟨fun text => .ok (s.sentences text)⟩

-- The new sentences are gathered in a document of their own, which is then appended. That
-- document takes a handle even if the text is refused; the refused document stays as it is.
def extend (s : Splitter) (text : String) (d : Document) : Naming (Except Fault Unit × Document) := do
  let scratch ← Document.fresh
  match s.sentences text with
  | .ok sentences => return (.ok (), d.append (sentences.foldl .addInPlace scratch))
  | .error fault => return (.error fault, d)

-- Extending as it is carried out: what is appended has to find a joint. A refused text needs none.
def extend? (s : Splitter) (text : String) (d : Document) :
    Naming (Option (Except Fault Unit × Document)) := do
  let scratch ← Document.fresh
  match s.sentences text with
  | .ok sentences => return (d.append? (sentences.foldl .addInPlace scratch)).map fun e => (.ok (), e)
  | .error fault => return some (.error fault, d)

def document (s : Splitter) (text : String) : Naming (Except Fault Document) := do
  let (done, d) ← s.extend text (← Document.fresh)
  return done.map fun _ => d

-- The old sentences go first, also where the new text is then refused. Notes stay.
def replace (s : Splitter) (text : String) (d : Document) : Naming (Except Fault Unit × Document) :=
  s.extend text d.cleared

end Splitter

end Marginalia
