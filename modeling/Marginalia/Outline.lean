import Marginalia.Snippet
import Marginalia.Text.Quoted

namespace Marginalia

-- One-line outlines for inspection; `name` says how a document is called.

def Span.outline (s : Span) : String :=
  "Span \x7b begin: " ++ toString s.start ++ ", end: " ++ toString s.stop ++ " \x7d"

def outlineOption {α : Type} (outline : α → String) : Option α → String
  | some a => "Some(" ++ outline a ++ ")"
  | none => "None"

def outlineHandle (name : Handle → String) (h : Handle) : String := "DocumentRef(" ++ name h ++ ")"

def Document.outline (name : Handle → String) (d : Document) : String :=
  "Document \x7b handle: " ++ outlineHandle name d.handle
    ++ ", id: " ++ outlineOption (fun id => String.ofList (Text.quote false id.toList)) d.metadata.id
    ++ ", span: " ++ d.span.outline
    ++ ", sentence_count: " ++ toString d.sentences.length
    ++ ", annotation_count: " ++ toString d.notes.length ++ " \x7d"

def Snippet.outline (name : Handle → String) (s : Snippet) : String :=
  "Snippet \x7b source: " ++ outlineHandle name s.source.handle
    ++ ", sentences: [" ++ ", ".intercalate (s.indices.map toString) ++ "]"
    ++ ", span: " ++ outlineOption Span.outline s.span? ++ " \x7d"

end Marginalia
