import Marginalia.Keyed
import Marginalia.Text.Blank
import Marginalia.Token

namespace Marginalia

-- Which words stand without a blank before or after them.
structure Joining where
  tightBefore : Members String
  tightAfter : Members String
deriving DecidableEq

namespace Joining

-- Closing punctuation and clitics lean on the word before them. Nothing, opening brackets and
-- line breaks hold the word after them.
def standard : Joining where
  tightBefore := .ofList [",", ".", ":", ";", "?", "!", ")", "]", "'m", "'s", "'re", "'ve", "'d",
    "'ll", "n't"]
  tightAfter := .ofList ["(", "[", "", "\n"]

def spaced (rules : Joining) (previous next : String) : Bool :=
  !rules.tightAfter.has previous && !rules.tightBefore.has next

def join (rules : Joining) (previous : String) : List String → List Char
  | [] => []
  | word :: rest =>
    (if rules.spaced previous word then [' '] else []) ++ word.toList ++ rules.join word rest

-- Words joined by the rules as after an empty word, and trimmed.
def chars (rules : Joining) (words : List String) : List Char := Text.trim (rules.join "" words)

def text (rules : Joining) (words : List String) : String := String.ofList (rules.chars words)

end Joining

end Marginalia
