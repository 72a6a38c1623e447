import Marginalia.Text.Bytes

namespace Marginalia.Text

theorem blanks_add (first second : Nat) : blanks (first + second) = blanks first ++ blanks second :=
  (List.replicate_append_replicate).symm

theorem bytes_pos {text : List Char} (filled : text ≠ []) : 0 < bytes text := by
  cases text with
  | nil => exact absurd rfl filled
  | cons c rest =>
    have := c.utf8Size_pos
    simp only [bytes]
    omega

theorem dropBytes_zero (text : List Char) : dropBytes 0 text = some text := by
  cases text <;> simp [dropBytes]

theorem takeBytes_zero (text : List Char) : takeBytes 0 text = some [] := by
  cases text <;> simp [takeBytes]

theorem dropBytes_append (left right : List Char) :
    dropBytes (bytes left) (left ++ right) = some right := by
  induction left with
  | nil => exact dropBytes_zero right
  | cons c rest ih =>
    have positive := c.utf8Size_pos
    have some_left : c.utf8Size + bytes rest ≠ 0 := by omega
    have enough : c.utf8Size ≤ c.utf8Size + bytes rest := Nat.le_add_right _ _
    simp only [bytes, List.cons_append, dropBytes, if_neg some_left, if_pos enough,
      Nat.add_sub_cancel_left, ih]

theorem takeBytes_append (left right : List Char) :
    takeBytes (bytes left) (left ++ right) = some left := by
  induction left with
  | nil => exact takeBytes_zero right
  | cons c rest ih =>
    have positive := c.utf8Size_pos
    have some_left : c.utf8Size + bytes rest ≠ 0 := by omega
    have enough : c.utf8Size ≤ c.utf8Size + bytes rest := Nat.le_add_right _ _
    simp only [bytes, List.cons_append, takeBytes, if_neg some_left, if_pos enough,
      Nat.add_sub_cancel_left, ih, Option.map_some]

theorem dropBytes_parts {offset : Nat} {text rest : List Char}
    (found : dropBytes offset text = some rest) : ∃ before, text = before ++ rest ∧ bytes before = offset := by
  induction text generalizing offset with
  | nil =>
    unfold dropBytes at found
    split at found
    · rename_i zero
      cases Option.some.inj found
      exact ⟨[], rfl, zero.symm⟩
    · cases found
  | cons c tail ih =>
    unfold dropBytes at found
    split at found
    · rename_i zero
      cases Option.some.inj found
      exact ⟨[], rfl, zero.symm⟩
    · split at found
      · rename_i fits
        obtain ⟨before, rfl, size⟩ := ih found
        refine ⟨c :: before, rfl, ?_⟩
        simp only [bytes]
        omega
      · cases found

theorem takeBytes_parts {offset : Nat} {text piece : List Char}
    (found : takeBytes offset text = some piece) : ∃ after, text = piece ++ after ∧ bytes piece = offset := by
  induction text generalizing offset piece with
  | nil =>
    unfold takeBytes at found
    split at found
    · rename_i zero
      cases Option.some.inj found
      exact ⟨[], rfl, zero.symm⟩
    · cases found
  | cons c tail ih =>
    unfold takeBytes at found
    split at found
    · rename_i zero
      cases Option.some.inj found
      exact ⟨c :: tail, rfl, zero.symm⟩
    · split at found
      · rename_i fits
        obtain ⟨kept, taken, rfl⟩ := Option.map_eq_some_iff.mp found
        obtain ⟨after, rfl, size⟩ := ih taken
        refine ⟨after, rfl, ?_⟩
        simp only [bytes]
        omega
      · cases found

-- A slice is what stands between a text before it and a text after it.
theorem slice_exact {start stop : Nat} {text piece : List Char} :
    slice start stop text = some piece ↔
      ∃ before after, text = before ++ (piece ++ after) ∧ bytes before = start ∧ bytes piece = stop - start := by
  constructor
  · intro found
    obtain ⟨rest, dropped, taken⟩ := Option.bind_eq_some_iff.mp found
    obtain ⟨before, rfl, start_size⟩ := dropBytes_parts dropped
    obtain ⟨after, rfl, size⟩ := takeBytes_parts taken
    exact ⟨before, after, rfl, start_size, size⟩
  · rintro ⟨before, after, rfl, rfl, size⟩
    refine Option.bind_eq_some_iff.mpr ⟨piece ++ after, dropBytes_append before _, ?_⟩
    rw [← size]
    exact takeBytes_append piece after

theorem slice_middle (before piece after : List Char) :
    slice (bytes before) (bytes before + bytes piece) (before ++ (piece ++ after)) = some piece :=
  slice_exact.mpr ⟨before, after, rfl, rfl, by omega⟩

theorem slice_whole (text : List Char) : slice 0 (bytes text) text = some text := by
  simpa [bytes] using slice_middle [] text []

-- Text behind a slice does not change it.
theorem slice_before {start stop : Nat} {text piece : List Char} (more : List Char)
    (found : slice start stop text = some piece) : slice start stop (text ++ more) = some piece := by
  obtain ⟨before, after, rfl, start_size, size⟩ := slice_exact.mp found
  exact slice_exact.mpr ⟨before, after ++ more, by simp only [List.append_assoc], start_size, size⟩

-- Text in front of a slice moves it.
theorem slice_behind {start stop : Nat} {text piece : List Char} (front : List Char)
    (found : slice start stop text = some piece) :
    slice (bytes front + start) (bytes front + stop) (front ++ text) = some piece := by
  obtain ⟨before, after, rfl, start_size, size⟩ := slice_exact.mp found
  refine slice_exact.mpr ⟨front ++ before, after, by simp only [List.append_assoc], ?_, ?_⟩
  · rw [bytes_append, start_size]
  · omega

-- Of two cuts of one text the one with fewer bytes in front comes first.
theorem earlier_cut {before after front back : List Char} (same : before ++ after = front ++ back)
    (fewer : bytes before ≤ bytes front) : ∃ between, front = before ++ between ∧ after = between ++ back := by
  rcases List.append_eq_append_iff.mp same with found | ⟨between, rfl, rfl⟩
  · exact found
  · cases between with
    | nil => exact ⟨[], by simp, by simp⟩
    | cons c rest =>
      have := bytes_pos (List.cons_ne_nil c rest)
      rw [bytes_append] at fewer
      omega

-- An offset between two characters, or at an end of the text.
def Boundary (offset : Nat) (text : List Char) : Prop :=
  ∃ before after, text = before ++ after ∧ bytes before = offset

theorem slice_some {start stop : Nat} {text : List Char} (ordered : start ≤ stop) :
    (∃ piece, slice start stop text = some piece) ↔ Boundary start text ∧ Boundary stop text := by
  constructor
  · rintro ⟨piece, found⟩
    obtain ⟨before, after, rfl, start_size, size⟩ := slice_exact.mp found
    refine ⟨⟨before, piece ++ after, rfl, start_size⟩, before ++ piece, after, ?_, ?_⟩
    · simp only [List.append_assoc]
    · rw [bytes_append]
      omega
  · rintro ⟨⟨before, after, rfl, start_size⟩, front, back, same, stop_size⟩
    obtain ⟨piece, rfl, rfl⟩ := earlier_cut same (by omega)
    refine ⟨piece, slice_exact.mpr ⟨before, back, rfl, start_size, ?_⟩⟩
    rw [bytes_append] at stop_size
    omega

-- A slice of a part is a slice of the whole, further back by what stands in front of the part.
theorem slice_part (front back : List Char) {start stop : Nat} {text : List Char} (ordered : start ≤ stop)
    (within : stop ≤ bytes text) :
    slice (bytes front + start) (bytes front + stop) (front ++ (text ++ back)) = slice start stop text := by
  apply Option.ext
  intro piece
  constructor
  · intro found
    obtain ⟨before, after, same, start_size, size⟩ := slice_exact.mp found
    obtain ⟨lead, rfl, parts⟩ := earlier_cut same (by omega)
    rw [bytes_append] at start_size
    rw [← List.append_assoc] at parts
    obtain ⟨rest, rfl, _⟩ := earlier_cut parts.symm (by rw [bytes_append]; omega)
    exact slice_exact.mpr ⟨lead, rest, by simp only [List.append_assoc], by omega, by omega⟩
  · intro found
    exact slice_behind front (slice_before back found)

end Marginalia.Text
