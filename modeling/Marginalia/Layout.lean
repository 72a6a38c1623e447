import Marginalia.Token

namespace Marginalia.Layout

-- A slot of `room` bytes: as much of the word as fits in whole characters, then blanks.
def fill (room : Nat) (word : List Char) : List Char :=
  let kept := Text.fit room word
  kept ++ Text.blanks (room - Text.bytes kept)

-- What comes before a token: the gap in blanks, or one blank where offsets run backwards.
def lead (cursor start : Nat) : List Char :=
  if start < cursor then Text.blanks 1 else Text.blanks (start - cursor)

-- The text that tokens describe by their offsets, from `cursor` on. Empty tokens are passed
-- over; every other token fills its slot and leaves the cursor at its end.
def chars (cursor : Nat) : List Token → List Char
  | [] => []
  | t :: rest =>
    if t.isEmpty then chars cursor rest
    else lead cursor t.start ++ fill t.length t.text.toList ++ chars t.stop rest

def text (cursor : Nat) (tokens : List Token) : String := String.ofList (chars cursor tokens)

-- A slot is filled to the byte.
theorem fill_exact (room : Nat) (word : List Char) : Text.bytes (fill room word) = room := by
  have := Text.bytes_fit room word
  simp only [fill, Text.bytes_append, Text.bytes_blanks]
  omega

end Marginalia.Layout
