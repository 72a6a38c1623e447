import Marginalia.Binary.Shortest
import Marginalia.Document.Text
import Marginalia.Text.Columns

namespace Marginalia.Underline

-- A line feed is drawn as one visible sign.
def drawn (text : List Char) : List Char := text.map fun c => if c = '\n' then '↵' else c

-- The column of an offset: the width of what is drawn before it. Offsets outside the document
-- stop at its edges, and one inside a character at the character's start.
def column (width : List Char → Nat) (d : Document) (offset : Nat) : Nat :=
  width (drawn (Text.fit (offset - d.start) d.chars))

-- A line under the columns from `first` to `last`, with a corner at each end. It has one sign
-- at least, and a second corner only from two signs on.
def line (first last : Nat) : List Char :=
  ['╰'] ++ List.replicate (last - 1 - (first + 1)) '─' ++ (if 1 < last - first then ['╯'] else [])

def caption (n : Note) : List Char :=
  (n.source.name ++ " " ++ n.kind.name).toList
    ++ (match n.label with
      | some label => ['['] ++ label.toList ++ [']']
      | none => [])
    ++ ['('] ++ (n.confidence.fixed 2).toList ++ [')']

def row (width : List Char → Nat) (d : Document) (n : Note) : List Char :=
  let first := column width d n.start
  ['\n'] ++ Text.blanks first ++ line first (column width d n.stop) ++ caption n

-- The text on one line, and below it a row for each note that a filter takes, filter by filter.
def chars (width : List Char → Nat) (d : Document) (included : List Filter) : List Char :=
  drawn d.chars ++ (included.flatMap (Overlay.matching d)).flatMap (row width d)

def render (d : Document) (included : List Filter) : String :=
  String.ofList (chars Text.columns d included)

end Marginalia.Underline
