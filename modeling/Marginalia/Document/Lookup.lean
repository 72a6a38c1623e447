import Marginalia.Document

namespace Marginalia.Document

def sentence (d : Document) (index : Nat) : Except RangeFault Sentence :=
  match d.sentences[index]? with
  | some s => .ok s
  | none => .error (.noSuchIndex index d.sentences.length)

-- The token at an index that counts across sentences.
def token? (d : Document) (index : Nat) : Option Token := d.tokens[index]?

-- Counted sentence by sentence.
def tokenCount (d : Document) : Nat := d.sentences.foldl (fun count s => count + s.tokens.length) 0

-- The first sentence that holds the position. Gaps hold none.
def sentenceAt? (d : Document) (position : Nat) : Option Sentence :=
  d.sentences.find? fun s => s.span.contains position

-- The index before the first sentence that starts past the position, or else the last index.
def sentenceIndexAt? (d : Document) (position : Nat) : Option Nat :=
  match d.sentences.findIdx? fun s => position < s.start with
  | some later => if later = 0 then none else some (later - 1)
  | none => if d.sentences.isEmpty then none else some (d.sentences.length - 1)

def sentencesIn (d : Document) (w : Window) (p : Policy) : List Sentence :=
  p.select w Sentence.span d.sentences

def tokensIn (d : Document) (w : Window) (p : Policy) : List Token := p.select w Token.span d.tokens

end Marginalia.Document
