import Marginalia.Fault
import Marginalia.Joining
import Marginalia.Segmenting
import Marginalia.Toml.Reader

namespace Marginalia

-- What can be set from outside: how words join, how large snippets may be, how text is cut.
structure Settings where
  joining : Joining
  maxSentences : Option Nat
  segmenting : Segmenting
deriving DecidableEq

namespace Settings

def standard : Settings := ⟨.standard, none, .standard⟩

-- A structure is given by a table of its fields, or by a list of them in order. Fields that
-- are missing or left over at the end keep their standard values, and unknown ones are passed
-- over. A moment counts as a table of one unknown field.
def fields? (names : List String) : Toml → Option (List (Option Toml))
  | .table _ _ entries | .inline entries => some (names.map (Toml.find? · entries))
  | .array items => some (positions names items)
  | .tables items => some (positions names (items.map (.table false false)))
  | .moment => some (names.map fun _ => none)
  | _ => none
where
  positions : List String → List Toml → List (Option Toml)
    | [], _ => []
    | _ :: names, [] => none :: positions names []
    | _ :: names, item :: items => some item :: positions names items

def given {α : Type} (read : Toml → Option α) (standard : α) : Option Toml → Option α
  | some value => read value
  | none => some standard

def text? : Toml → Option String
  | .text content => some content
  | _ => none

def words? : Toml → Option (Members String)
  | .array items => Members.ofList <$> items.mapM text?
  | .tables items => if items.isEmpty then some .empty else none
  | _ => none

def size? : Toml → Option (Option Nat)
  | .integer value => if 0 ≤ value then some (some value.toNat) else none
  | _ => none

def truth? : Toml → Option Bool
  | .truth value => some value
  | _ => none

def joining? (value : Toml) : Option Joining := do
  match ← fields? ["skip_space_before", "skip_space_after"] value with
  | [before, after] =>
    return {
      tightBefore := ← given words? Joining.standard.tightBefore before
      tightAfter := ← given words? Joining.standard.tightAfter after }
  | _ => none

def maxSentences? (value : Toml) : Option (Option Nat) := do
  match ← fields? ["max_sentences"] value with
  | [size] => given size? none size
  | _ => none

def segmenting? (value : Toml) : Option Segmenting := do
  match ← fields? ["keep_newlines"] value with
  | [keep] => return ⟨← given truth? Segmenting.standard.keepBreaks keep⟩
  | _ => none

def ofEntries? (entries : Toml.Entries) : Option Settings := do
  return {
    joining := ← given joining? .standard (Toml.find? "join" entries)
    maxSentences := ← given maxSentences? none (Toml.find? "snippet" entries)
    segmenting := ← given segmenting? .standard (Toml.find? "segmenting" entries) }

def read (text : String) : Except Fault Settings :=
  match (Toml.read? text).bind ofEntries? with
  | some settings => .ok settings
  | none => .error .malformedSettings

-- What a path leads to.
inductive Stored where
  | nothing
  | unreadable
  | content (bytes : ByteArray)

-- Without a file the standard settings hold. A file that is no text cannot be read.
def load : Stored → Except Fault Settings
  | .nothing => .ok standard
  | .unreadable => .error .unreadableFile
  | .content bytes => match String.fromUTF8? bytes with
    | some text => read text
    | none => .error .unreadableFile

end Settings

end Marginalia
