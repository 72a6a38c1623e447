import Marginalia.Layout
import Marginalia.Policy

namespace Marginalia

-- Tokens in reading order and the range they cover.
structure Sentence where
  span : Span
  tokens : List Token
deriving DecidableEq

namespace Sentence

def empty : Sentence := ⟨.origin, []⟩

-- No tokens, but a range all the same.
def spanning (span : Span) : Sentence := ⟨span, []⟩

-- The first token sets the range, whatever it was; later ones widen it.
def add (s : Sentence) (t : Token) : Sentence where
  span := if s.tokens.isEmpty then t.span else s.span.cover t.span
  tokens := s.tokens ++ [t]

def ofTokens (tokens : List Token) : Sentence := tokens.foldl add empty

def start (s : Sentence) : Nat := s.span.start

def stop (s : Sentence) : Nat := s.span.stop

def length (s : Sentence) : Nat := s.span.length

def isEmpty (s : Sentence) : Bool := s.tokens.isEmpty

def tokensIn (s : Sentence) (w : Window) (p : Policy) : List Token := p.select w Token.span s.tokens

def text (s : Sentence) : String := Layout.text s.start s.tokens

-- A token keeps its distance from the sentence's start; one that lies before it moves to it.
def movedTo (s : Sentence) (start : Nat) : Sentence where
  span := s.span.movedTo start
  tokens := s.tokens.map fun t => t.movedTo (start + (t.start - s.start))

-- The move as it is carried out: the new starts are plain sums.
def movedTo? (s : Sentence) (start : Nat) : Option Sentence :=
  if s.tokens.all fun t => start + (t.start - s.start) ≤ maxOffset then some (s.movedTo start) else none

def shifted (s : Sentence) (delta : Nat) : Sentence where
  span := s.span.shifted delta
  tokens := s.tokens.map fun t => t.shifted delta

def mapText (transform : String → String) (s : Sentence) : Sentence :=
  { s with tokens := s.tokens.map (Token.mapText transform) }

-- The range is the exact cover of the tokens, or free where there are none.
def Covered (s : Sentence) : Prop := ∀ cover ∈ Span.coverAll (s.tokens.map Token.span), s.span = cover

def same (a b : Sentence) : Bool := a.span == b.span && a.tokens.isEqv b.tokens Token.same

end Sentence

end Marginalia
