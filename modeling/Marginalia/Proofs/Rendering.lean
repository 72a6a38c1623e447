import Marginalia.Proofs.Extracts
import Marginalia.Proofs.Figures
import Marginalia.Underline

namespace Marginalia

namespace Text

-- What stands before an offset, of a text that begins at `start`: nothing up to there, all of it from its end on,
-- and from a character on up to the next one what comes before that character.
structure Front (start : Nat) (text : List Char) (offset : Nat) (front : List Char) : Prop where
  ahead : offset ≤ start → front = []
  past : start + bytes text ≤ offset → front = text
  inside : ∀ before c after, text = before ++ c :: after → start + bytes before ≤ offset →
    offset < start + bytes before + c.utf8Size → front = before

end Text

namespace Underline

open Text

-- So many signs, one at least. The first is a corner, and so is the last of several.
structure Line (signs : Nat) (under : List Char) : Prop where
  length : under.length = max 1 signs
  left : under.head? = some '╰'
  right : under.getLast? = some '╯' ↔ 2 ≤ under.length
  between : ∀ i, 0 < i → i + 1 < under.length → under[i]? = some '─'

-- A line that would end left of its start has the one corner, as one of a single sign has.
example : line 5 3 = ['╰'] ∧ line 4 5 = ['╰'] ∧ line 3 5 = ['╰', '╯'] := by decide

-- What is shown of a character: a sign of its own for a line feed, else the character.
inductive Shown : Char → Char → Prop where
  | feed : Shown '\n' '↵'
  | plain {c : Char} (other : c ≠ '\n') : Shown c c

-- What is said of a note: where it comes from, its kind, its label in brackets if it has one, and its confidence to
-- two places.
inductive Said (n : Note) : String → Prop where
  | bare {figure : String} (bare : n.label = none) (sure : n.confidence.Figure figure) :
      Said n (n.source.name ++ " " ++ n.kind.name ++ "(" ++ figure ++ ")")
  | labelled {label figure : String} (labelled : n.label = some label) (sure : n.confidence.Figure figure) :
      Said n (n.source.name ++ " " ++ n.kind.name ++ "[" ++ label ++ "]" ++ "(" ++ figure ++ ")")

-- A row below the text: a line feed, blanks up to the column where the note starts, the line below its columns, and
-- what is said of it. A column is the width of what is shown in front of it.
inductive Row (width : List Char → Nat) (d : Document) (n : Note) : List Char → Prop where
  | row {before upto left right under : List Char} {said : String}
      (starts : Front d.start d.text.toList n.start before) (stops : Front d.start d.text.toList n.stop upto)
      (first : List.Forall₂ Shown before left) (last : List.Forall₂ Shown upto right)
      (lined : Line (width right - width left) under) (captioned : Said n said) :
      Row width d n ('\n' :: List.replicate (width left) ' ' ++ under ++ said.toList)

variable (width : List Char → Nat) (d : Document)

theorem text_chars : d.text.toList = d.chars := String.toList_ofList

-- Three words, the middle one a line feed. The note ends inside the last character, and its confidence lies in the
-- middle between two hundredths.
def place : Note :=
  (((NoteBody.plain .namedEntity .gold (.clamped 1 4)).named ⟨1⟩).withLabel "LOC").withConfidence
    (.ofWord false 4603804719079489536)

def folded : Document :=
  ((Document.empty ⟨1⟩).addInPlace (.ofTokens
    [.spanning "a" (.clamped 0 1), .spanning "\n" (.clamped 1 1), .spanning "bcé" (.clamped 2 4)])).addNote place

end Underline

end Marginalia
