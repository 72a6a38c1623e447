import Marginalia.Text.ColumnClass

namespace Marginalia.Text

-- What lies to the right of a character, as far as it can change the character's width.
inductive Follower where
  | plain
  | modifier
  | regional
  | regionals
  | picture
  | joinedPicture
  | joinedKeycap
  | joinedRegional
  | evenRegionals
  | oddRegionals
  | alef
  | lamed (joined : Bool)
  | ya (joined : Bool)
  | yaVowel
  | tifinagh (joined : Bool)
  | tifinaghJoiner
  | lisuTone
  | orkhonI (joined : Bool)
  | coengLetter
deriving DecidableEq

-- Which variation selector stands between the character and its follower.
inductive Styling where
  | unstyled
  | asPicture
  | asText
deriving DecidableEq

namespace Follower

def isLigature : Follower → Bool
  | .alef | .lamed _ | .ya _ | .yaVowel | .tifinagh _ | .tifinaghJoiner | .lisuTone | .orkhonI _
  | .coengLetter => true
  | _ => false

def keepsPictureStyle (f : Follower) : Bool :=
  f.isLigature || f = .joinedPicture || f = .joinedKeycap

def joined : Follower → Follower
  | .lamed _ => .lamed true
  | .ya _ => .ya true
  | .tifinagh _ => .tifinagh true
  | .orkhonI _ => .orkhonI true
  | other => other

end Follower

def isRegional (n : Nat) : Bool := 0x1F1E6 ≤ n && n ≤ 0x1F1FF

def isModifier (n : Nat) : Bool := 0x1F3FB ≤ n && n ≤ 0x1F3FF

def isTifinagh (n : Nat) : Bool := (0x2D31 ≤ n && n ≤ 0x2D65) || n = 0x2D6F

-- The width of a character by itself.
def ownWidth (c : Char) : Int :=
  let n := c.toNat
  if n ≤ 0xA0 then 1
  else if n = 0x17D8 then 3
  else if zeroWidth.holds c then 0
  else if doubleWidth.holds c then 2
  else 1

-- What a character is to the one before it.
def asFollower (c : Char) : Follower :=
  let n := c.toNat
  if n ≤ 0xA0 then .plain
  else if isModifier n then .modifier
  else if isRegional n then .regional
  else if emojiByDefault.holds c then .picture
  else if alefs.holds c then .alef
  else if n = 0x5DC then .lamed false
  else if n = 0x1A10 then .ya false
  else if isTifinagh n then .tifinagh false
  else if n = 0xA4FC ∨ n = 0xA4FD then .lisuTone
  else if n = 0x10C03 then .orkhonI false
  else if coengLetters.holds c then .coengLetter
  else .plain

-- Sequences that are drawn as one. Gives what the character adds to their width.
def inSequence (c : Char) (follower : Follower) : Option (Int × Follower) :=
  let n := c.toNat
  match follower with
  | .alef =>
    if lams.holds c then some (0, .plain)
    else if joiningTransparent.holds c then some (0, .alef)
    else none
  | .lamed true => if n = 0x5D0 then some (0, .plain) else none
  | .coengLetter => if n = 0x17D2 then some (-1, .plain) else none
  | .ya true => if n = 0x1A17 then some (0, .yaVowel) else none
  | .yaVowel => if n = 0x1A15 then some (0, .plain) else none
  | .tifinagh joined =>
    if n = 0x2D7F then some (1, .tifinaghJoiner)
    else if joined && isTifinagh n then some (0, .plain)
    else none
  | .tifinaghJoiner => if isTifinagh n then some (-1, .plain) else none
  | .lisuTone => if 0xA4F8 ≤ n ∧ n ≤ 0xA4FB then some (0, .plain) else none
  | .orkhonI true => if n = 0x10C32 then some (0, .plain) else none
  | .modifier =>
    if modifierBases.holds c then some (0, .picture)
    else if n = 0x200D then some (0, .joinedPicture)
    else none
  | .regional | .regionals =>
    if isRegional n then some (1, .regionals)
    else if n = 0x200D ∧ follower = .regionals then some (0, .joinedPicture)
    else none
  | .picture => if n = 0x200D then some (0, .joinedPicture) else none
  | .joinedPicture =>
    if n = 0x20E3 then some (0, .joinedKeycap)
    else if isRegional n then some (1, .joinedRegional)
    else if isModifier n then some (0, .modifier)
    else if emojiByDefault.holds c then some (0, .picture)
    else none
  | .joinedRegional | .oddRegionals => if isRegional n then some (-1, .evenRegionals) else none
  | .evenRegionals =>
    if isRegional n then some (3, .oddRegionals)
    else if n = 0x200D then some (0, .joinedPicture)
    else none
  | _ => none

-- What a character adds, seen from the right.
def columnStep (c : Char) (follower : Follower) (style : Styling) : Int × Follower × Styling :=
  let n := c.toNat
  let sequenceJoined := follower = .joinedPicture ∨ follower = .joinedKeycap
  if style = .asPicture ∧ emojiStyled.holds c then
    (if sequenceJoined then 0 else 2, .picture, .unstyled)
  else
    let follower := if style = .asPicture ∧ ¬ follower.isLigature then .plain else follower
    if n ≤ 0xA0 then (1, .plain, .unstyled)
    else if n = 0xFE0F then
      (0, if follower.keepsPictureStyle then follower else .plain, .asPicture)
    else if n = 0xFE0E then (0, if follower.isLigature then follower else .plain, .asText)
    else if style = .asText ∧ emojiStyled.holds c ∧ emojiByDefault.holds c
        ∧ ¬ (0x1F200 ≤ n ∧ n ≤ 0x1F2FF) then (1, .plain, .unstyled)
    else if follower.isLigature ∧ follower ≠ .alef ∧ n = 0x200D then (0, follower.joined, .unstyled)
    else if follower.isLigature ∧ follower ≠ .alef ∧ ligatureTransparent.holds c then
      (0, follower, .unstyled)
    else match inSequence c follower with
      | some (added, follower) => (added, follower, .unstyled)
      | none => (ownWidth c, asFollower c, .unstyled)

def columnsFrom : List Char → Int × Follower × Styling
  | [] => (0, .plain, .unstyled)
  | c :: rest =>
    let (width, follower, style) := columnsFrom rest
    let (added, follower, style) := columnStep c follower style
    (width + added, follower, style)

-- How many columns a terminal takes for a text.
def columns (text : List Char) : Nat := (columnsFrom text).1.toNat

end Marginalia.Text
