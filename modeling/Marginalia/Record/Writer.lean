import Marginalia.Binary.Shortest
import Marginalia.Record
import Marginalia.Text.Quoted

namespace Marginalia.Record

-- Deeper blocks are written on one line.
def depthLimit : Nat := 6

def indent (level : Nat) : List Char := (List.replicate level "    ".toList).flatten

-- Items between brackets. Down to the depth limit each stands on a line of its own with a
-- comma after it; deeper they share a line with commas between them.
def block (level : Nat) (opening closing : Char) (items : List (List Char)) : List Char :=
  if items.isEmpty then [opening, closing]
  else if level ≤ depthLimit then
    [opening, '\n'] ++ items.flatMap (fun item => indent level ++ item ++ [',', '\n'])
      ++ indent (level - 1) ++ [closing]
  else [opening] ++ [',', ' '].intercalate items ++ [closing]

def field (name : String) (value : List Char) : List Char := name.toList ++ [':', ' '] ++ value

def writeNat (n : Nat) : List Char := (toString n).toList

def writeText (text : String) : List Char := Text.quote true text.toList

-- A number that is whole gets a fractional part all the same.
def writeBinary {f : Format} (x : Binary f) : List Char :=
  x.render.toList ++ (if x.isWhole then ['.', '0'] else [])

def call (name : String) (argument : List Char) : List Char :=
  name.toList ++ ['('] ++ argument ++ [')']

def writeOption {α : Type} (write : α → List Char) : Option α → List Char
  | some a => call "Some" (write a)
  | none => "None".toList

-- A field that is written only if it has a value.
def optionalField {α : Type} (name : String) (write : α → List Char) : Option α → List (List Char)
  | some a => [field name (writeOption write (some a))]
  | none => []

def writeSpan (level : Nat) (s : Span) : List Char :=
  block level '(' ')' [field "begin" (writeNat s.start), field "end" (writeNat s.stop)]

def writeAttachment (level : Nat) : Attachment → List Char
  | .vector entries => call "Vector" (block level '[' ']' (entries.map writeBinary))
  | .tag label => call "Tag" (writeText label)

def writeAttachments (level : Nat) (attachments : Keyed String Attachment) : List Char :=
  block level '\x7b' '\x7d' (attachments.entries.map fun entry =>
    writeText entry.1 ++ [':', ' '] ++ writeAttachment (level + 1) entry.2)

def writeToken (level : Nat) (t : Token) : List Char :=
  block level '(' ')' ([
    field "text" (writeText t.text),
    field "span" (writeSpan (level + 1) t.span)]
    ++ (if t.attachments.isEmpty then []
      else [field "attachments" (writeAttachments (level + 1) t.attachments)]))

def writeSentence (level : Nat) (s : Sentence) : List Char :=
  block level '(' ')' [
    field "span" (writeSpan (level + 1) s.span),
    field "tokens" (block (level + 1) '[' ']' (s.tokens.map (writeToken (level + 2))))]

def writeNote (level : Nat) (n : NoteBody) : List Char :=
  block level '(' ')' ([
    field "span" (writeSpan (level + 1) n.span),
    field "kind" n.kind.name.toList,
    field "source" n.source.name.toList,
    field "confidence" (writeBinary n.confidence)]
    ++ optionalField "label" writeText n.label)

def writeHeading (level : Nat) (h : Heading) : List Char :=
  block level '(' ')' (field "title" (writeOption writeText h.title)
    :: optionalField "abstract_text" writeText h.summary)

def writeTags (level : Nat) (tags : TagTable) : List Char :=
  block level '\x7b' '\x7d' (tags.entries.map fun entry =>
    field entry.1.name (block (level + 1) '[' ']' (entry.2.toList.map writeText)))

def chars (r : Record NoteBody) : List Char :=
  block 1 '(' ')' (
    optionalField "id" writeText r.id
    ++ optionalField "language" writeText r.language
    ++ optionalField "doc_type" writeText r.docType
    ++ optionalField "title" (writeHeading 2) r.heading
    ++ [
      field "span" (writeSpan 2 r.span),
      field "sentences" (block 2 '[' ']' (r.sentences.map (writeSentence 3))),
      field "annotations" (block 2 '[' ']' (r.notes.map (writeNote 3))),
      field "assigned_tags" (writeTags 2 r.tags)])

def write (r : Record NoteBody) : String := String.ofList r.chars

end Marginalia.Record
