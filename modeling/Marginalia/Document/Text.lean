import Marginalia.Document

namespace Marginalia.Document

-- The text the tokens describe. Without tokens, one blank between each two sentences.
def chars (d : Document) : List Char :=
  if d.isEmpty then [' '].intercalate (d.sentences.map fun s => Layout.chars s.start s.tokens)
  else Layout.chars d.start d.tokens

def text (d : Document) : String := String.ofList d.chars

-- The text in a range that has to lie in the document and to cut no character.
def textAt (d : Document) (s : Span) : Except RangeFault String :=
  let size := Text.bytes d.chars
  if s.start < d.start ∨ d.start + size < s.stop then
    .error (.outsideText s.start s.stop d.start (d.start + size))
  else match Text.slice (s.start - d.start) (s.stop - d.start) d.chars with
    | some chars => .ok (String.ofList chars)
    | none => .error (.splitsCharacter s.start s.stop)

-- Reading as it is carried out: the end of the text is a plain sum, taken only where a refusal tells it.
def textAt? (d : Document) (s : Span) : Option (Except RangeFault String) :=
  match d.textAt s with
  | .error (.outsideText start stop textStart textStop) =>
    if textStop ≤ maxOffset then some (.error (.outsideText start stop textStart textStop)) else none
  | outcome => some outcome

def textOf (d : Document) (n : Note) : Except RangeFault String := d.textAt n.span

def textOf? (d : Document) (n : Note) : Option (Except RangeFault String) := d.textAt? n.span

end Marginalia.Document
