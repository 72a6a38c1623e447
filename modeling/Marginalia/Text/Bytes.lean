namespace Marginalia.Text

-- Bytes that characters take in UTF-8.
def bytes : List Char → Nat
  | [] => 0
  | c :: rest => c.utf8Size + bytes rest

def blanks (count : Nat) : List Char := List.replicate count ' '

-- The longest run of whole characters that takes at most `room` bytes.
def fit (room : Nat) : List Char → List Char
  | [] => []
  | c :: rest => if c.utf8Size ≤ room then c :: fit (room - c.utf8Size) rest else []

-- The characters from byte `offset` on. Absent past the end and inside a character.
def dropBytes (offset : Nat) : List Char → Option (List Char)
  | [] => if offset = 0 then some [] else none
  | c :: rest =>
    if offset = 0 then some (c :: rest)
    else if c.utf8Size ≤ offset then dropBytes (offset - c.utf8Size) rest
    else none

-- The characters before byte `offset`, with the same refusals.
def takeBytes (offset : Nat) : List Char → Option (List Char)
  | [] => if offset = 0 then some [] else none
  | c :: rest =>
    if offset = 0 then some []
    else if c.utf8Size ≤ offset then (takeBytes (offset - c.utf8Size) rest).map (c :: ·)
    else none

def slice (start stop : Nat) (text : List Char) : Option (List Char) := do
  takeBytes (stop - start) (← dropBytes start text)

theorem bytes_append (left right : List Char) : bytes (left ++ right) = bytes left + bytes right := by
  induction left with
  | nil => simp [bytes]
  | cons c rest ih => simp [bytes, ih, Nat.add_assoc]

theorem bytes_blanks (count : Nat) : bytes (blanks count) = count := by
  induction count with
  | zero => rfl
  | succ n ih =>
    have step : bytes (blanks (n + 1)) = 1 + bytes (blanks n) := rfl
    omega

theorem bytes_fit (room : Nat) (text : List Char) : bytes (fit room text) ≤ room := by
  induction text generalizing room with
  | nil => exact Nat.zero_le _
  | cons c rest ih =>
    unfold fit
    split
    · have := ih (room - c.utf8Size)
      simp only [bytes]
      omega
    · exact Nat.zero_le _

end Marginalia.Text
