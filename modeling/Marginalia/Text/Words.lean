import Marginalia.Text.Cutter
import Marginalia.Text.WordClass

namespace Marginalia.Text

-- What a word in progress still needs after a sign in its middle.
inductive WordNeed where
  | letter
  | hebrew
  | numeral
deriving DecidableEq

-- What the word in progress ends in. A `pending` word has gone past a middle sign and shrinks
-- to `kept` characters if what it needs does not come.
inductive WordState where
  | letter
  | hebrew
  | numeral
  | katakana
  | connector
  | space
  | joiner
  | regional
  | regionalPair
  | pictograph
  | single
  | quoted
  | pending (need : WordNeed) (kept : Nat)
deriving DecidableEq

namespace WordState

-- The state after a character that joins letters, digits and connectors freely.
def afterJoining : WordClass → Option WordState
  | .letter => some .letter
  | .hebrew => some .hebrew
  | .numeral => some .numeral
  | .connector => some .connector
  | _ => none

-- The next state, or nothing if the word ends before the character. `taken` characters lie
-- before it; `loose` says that some character was passed over as attached.
def next (taken : Nat) (loose : Bool) : WordState → WordClass → Option WordState
  | .letter, .midLetter | .letter, .midBoth | .letter, .singleQuote =>
    some (.pending .letter taken)
  | .letter, c => afterJoining c
  | .hebrew, .doubleQuote => some (.pending .hebrew taken)
  | .hebrew, .singleQuote => some .quoted
  | .hebrew, .midLetter | .hebrew, .midBoth => some (.pending .letter taken)
  | .hebrew, c => afterJoining c
  | .numeral, .midNumeral | .numeral, .midBoth | .numeral, .singleQuote =>
    some (.pending .numeral taken)
  | .numeral, c => afterJoining c
  | .katakana, .katakana => some .katakana
  | .katakana, .connector => some .connector
  | .connector, .katakana => some .katakana
  | .connector, c => afterJoining c
  | .space, .space => if loose then none else some .space
  | .regional, .regional => some .regionalPair
  | .quoted, .letter | .pending .letter _, .letter => some .letter
  | .quoted, .hebrew | .pending .letter _, .hebrew | .pending .hebrew _, .hebrew => some .hebrew
  | .pending .numeral _, .numeral => some .numeral
  | _, _ => none

-- The length of a word that ends here.
def close (taken : Nat) : WordState → Nat
  | .pending _ kept => kept
  | _ => taken

end WordState

-- How many more characters belong to a word in progress. Attached characters never end it,
-- and a pictograph right after a joiner goes on with any word.
def wordRest (state : WordState) (loose joined : Bool) (taken : Nat) : List Char → Nat
  | [] => state.close taken
  | c :: rest =>
    let cls := WordClass.ofChar c
    if cls.attaches then wordRest state true (cls == .joiner) (taken + 1) rest
    else if joined && pictographs.holds c then wordRest .pictograph loose false (taken + 1) rest
    else match state.next taken loose cls with
      | some state => wordRest state loose false (taken + 1) rest
      | none => state.close taken

-- How many characters after the first belong to the first word of a text.
def wordTail (first : Char) (rest : List Char) : Nat :=
  let begin (state : WordState) := wordRest state false false 0 rest
  match WordClass.ofChar first with
  | .carriageReturn => match rest with
    | next :: _ => if WordClass.ofChar next = .lineFeed then 1 else 0
    | [] => 0
  | .lineFeed | .newline => 0
  | .letter => begin .letter
  | .hebrew => begin .hebrew
  | .numeral => begin .numeral
  | .katakana => begin .katakana
  | .connector => begin .connector
  | .regional => begin .regional
  | .space => begin .space
  | .joiner => wordRest .joiner false true 0 rest
  | _ => match rest with
    | next :: _ => if (WordClass.ofChar next).attaches then begin .single else 0
    | [] => 0

def cutWords : List Char → List (List Char)
  | [] => []
  | c :: rest =>
    let count := wordTail c rest
    (c :: rest.take count) :: cutWords (rest.drop count)
termination_by text => text.length
decreasing_by
  simp only [List.length_drop, List.length_cons]
  omega

theorem cutWords_whole (text : List Char) : (cutWords text).flatten = text := by
  fun_induction cutWords text with
  | case1 => rfl
  | case2 c rest count ih => simp [ih]

theorem cutWords_filled (text : List Char) : ∀ piece ∈ cutWords text, piece ≠ [] := by
  fun_induction cutWords text with
  | case1 => simp
  | case2 c rest count ih =>
    intro piece member
    rcases List.mem_cons.mp member with rfl | later
    · simp
    · exact ih piece later

-- Words by the default rules for word boundaries.
def wordCutter : Cutter := ⟨cutWords, cutWords_whole, cutWords_filled⟩

end Marginalia.Text
