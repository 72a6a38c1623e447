import Marginalia.Sentence
import Marginalia.Text.Blank
import Marginalia.Text.Sentences
import Marginalia.Text.Words

namespace Marginalia

-- How to cut raw text into sentences of tokens.
structure Segmenting where
  keepBreaks : Bool
deriving DecidableEq

namespace Segmenting

def standard : Segmenting := ⟨true⟩

-- Blank words are dropped, save line breaks where they are to be kept.
def keeps (s : Segmenting) (word : List Char) : Bool :=
  !Text.allBlank word || (s.keepBreaks && word.contains '\n')

-- Pieces together with the offsets they start at.
def located (start : Nat) : List (List Char) → List (Nat × List Char)
  | [] => []
  | piece :: rest => (start, piece) :: located (start + Text.bytes piece) rest

-- The kept words of one piece as tokens.
def tokens (s : Segmenting) (words : Text.Cutter) (piece : Nat × List Char) : List Token :=
  ((located piece.1 (words.cut piece.2)).filter fun word => s.keeps word.2).map
    fun word => .starting (String.ofList word.2) word.1

def onlyBreaks (tokens : List Token) : Bool := tokens.all fun t => Text.allBlank t.text.toList

-- Adds the tokens of the next piece to sentences held latest first. Breaks alone make no
-- sentence of their own where there is one to take them.
def gather (latest : List Sentence) (tokens : List Token) : List Sentence :=
  if tokens.isEmpty then latest
  else match latest with
    | previous :: before =>
      if onlyBreaks tokens then tokens.foldl .add previous :: before
      else .ofTokens tokens :: latest
    | [] => [.ofTokens tokens]

def sentencesBy (s : Segmenting) (sentences words : Text.Cutter) (text : List Char) : List Sentence :=
  ((located 0 (sentences.cut text)).map (s.tokens words)).foldl gather [] |>.reverse

def sentences (s : Segmenting) (text : String) : List Sentence :=
  s.sentencesBy Text.sentenceCutter Text.wordCutter text.toList

end Segmenting

end Marginalia
