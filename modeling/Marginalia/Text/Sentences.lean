import Marginalia.Text.Cutter
import Marginalia.Text.SentenceClass

namespace Marginalia.Text

-- What a text has just gone past. Runs of closers and of spaces count once.
inductive SentencePart where
  | nothing
  | letter
  | ambiguousStop
  | stop
  | closers
  | spaces
  | carriageReturn
  | lineFeed
  | separator
  | other
deriving DecidableEq

namespace SentencePart

def ofClass : SentenceClass → SentencePart
  | .lower | .upper => .letter
  | .ambiguousStop => .ambiguousStop
  | .stop => .stop
  | .closer => .closers
  | .space => .spaces
  | .carriageReturn => .carriageReturn
  | .lineFeed => .lineFeed
  | .separator => .separator
  | _ => .other

def endsLine : SentencePart → Bool
  | .carriageReturn | .lineFeed | .separator => true
  | _ => false

def endsSentence : SentencePart → Bool
  | .ambiguousStop | .stop => true
  | _ => false

end SentencePart

-- The last four parts, the latest first.
structure SentenceWindow where
  last : SentencePart
  second : SentencePart
  third : SentencePart
  fourth : SentencePart
deriving DecidableEq

namespace SentenceWindow

def fresh : SentenceWindow := ⟨.nothing, .nothing, .nothing, .nothing⟩

def push (w : SentenceWindow) (part : SentencePart) : SentenceWindow :=
  if part = w.last ∧ (part = .closers ∨ part = .spaces) then w
  else ⟨part, w.last, w.second, w.third⟩

-- The part before the window's last closers.
def beforeClosers (w : SentenceWindow) : SentencePart :=
  if w.last = .closers then w.second else w.last

-- The part before the window's last spaces and the closers before them.
def beforeSpaces (w : SentenceWindow) : SentencePart :=
  if w.last = .spaces then (if w.second = .closers then w.third else w.second)
  else w.beforeClosers

end SentenceWindow

-- Whether a small letter comes before any other letter, stop or line end.
def smallAhead : List Char → Bool
  | [] => false
  | c :: rest => match SentenceClass.ofChar c with
    | .lower => true
    | .caseless | .upper | .separator | .carriageReturn | .lineFeed | .stop | .ambiguousStop => false
    | _ => smallAhead rest

-- Whether a sentence ends before a character; `ahead` begins with that character.
def sentenceEnds (w : SentenceWindow) (cls : SentenceClass) (ahead : List Char) : Bool :=
  let line := cls == .separator || cls == .carriageReturn || cls == .lineFeed
  if cls = .lineFeed ∧ w.last = .carriageReturn then false
  else if w.last.endsLine then true
  else if cls = .numeral ∧ w.last = .ambiguousStop then false
  else if cls = .upper ∧ w.second = .letter ∧ w.last = .ambiguousStop then false
  else if w.beforeSpaces = .ambiguousStop && smallAhead ahead then false
  else if cls = .continuer ∨ cls = .stop ∨ cls = .ambiguousStop then false
  else if (cls = .closer || cls = .space || line) && w.beforeClosers.endsSentence then false
  else if (cls = .space || line) && w.beforeSpaces.endsSentence then false
  else w.beforeSpaces.endsSentence

-- Cuts while reading; `piece` holds the sentence in progress, the latest character first.
-- Marks and controls that attach leave the window as it was, save at the start of a text.
def cutSentencesFrom (w : SentenceWindow) (piece : List Char) : List Char → List (List Char)
  | [] => if piece.isEmpty then [] else [piece.reverse]
  | c :: rest =>
    let cls := SentenceClass.ofChar c
    if piece.isEmpty then cutSentencesFrom (w.push (.ofClass cls)) [c] rest
    else if (cls = .extend ∨ cls = .format) ∧ ¬ w.last.endsLine then
      cutSentencesFrom w (c :: piece) rest
    else if sentenceEnds w cls (c :: rest) then
      piece.reverse :: cutSentencesFrom (w.push (.ofClass cls)) [c] rest
    else cutSentencesFrom (w.push (.ofClass cls)) (c :: piece) rest

def cutSentences (text : List Char) : List (List Char) := cutSentencesFrom .fresh [] text

theorem cutSentencesFrom_whole (w : SentenceWindow) (piece text : List Char) :
    (cutSentencesFrom w piece text).flatten = piece.reverse ++ text := by
  induction text generalizing w piece with
  | nil => cases piece <;> simp [cutSentencesFrom]
  | cons c rest ih =>
    unfold cutSentencesFrom
    cases piece with
    | nil => simp [ih]
    | cons d before =>
      dsimp only
      split
      · simp_all
      · split
        · simp [ih]
        · split <;> simp [ih]

theorem cutSentencesFrom_filled (w : SentenceWindow) (piece text : List Char) :
    ∀ part ∈ cutSentencesFrom w piece text, part ≠ [] := by
  induction text generalizing w piece with
  | nil => cases piece <;> simp [cutSentencesFrom]
  | cons c rest ih =>
    unfold cutSentencesFrom
    dsimp only
    split
    · exact ih _ _
    · rename_i started
      split
      · exact ih _ _
      · split
        · intro part member
          rcases List.mem_cons.mp member with rfl | later
          · intro empty
            exact started (by simpa using empty)
          · exact ih _ _ part later
        · exact ih _ _

-- Sentences by the default rules for sentence boundaries.
def sentenceCutter : Cutter where
  cut := cutSentences
  whole text := by simp [cutSentences, cutSentencesFrom_whole]
  filled text := cutSentencesFrom_filled _ _ text

end Marginalia.Text
