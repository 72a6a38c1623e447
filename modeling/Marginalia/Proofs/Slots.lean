import Marginalia.Proofs.Layouts
import Mathlib.Algebra.GroupWithZero.Nat

namespace Marginalia

namespace Text

-- The bytes of a text in UTF-8.
def encoded (text : List Char) : List UInt8 := text.flatMap String.utf8EncodeChar

theorem encoded_append (left right : List Char) : encoded (left ++ right) = encoded left ++ encoded right :=
  List.flatMap_append

theorem encoded_length (text : List Char) : (encoded text).length = bytes text := by
  induction text with
  | nil => rfl
  | cons c rest ih =>
    rw [encoded, List.flatMap_cons, List.length_append, String.length_utf8EncodeChar]
    exact congrArg (c.utf8Size + ·) ih

theorem encoded_blanks (count : Nat) : encoded (blanks count) = List.replicate count 32 := by
  induction count with
  | zero => rfl
  | succ n ih =>
    rw [List.replicate_succ, ← ih]
    rfl

theorem encoded_string (text : List Char) : (String.ofList text).toByteArray.data.toList = encoded text := by
  rw [String.toByteArray_ofList, List.utf8Encode, List.toList_data_toByteArray]
  rfl

theorem bytes_string (text : List Char) : (String.ofList text).utf8ByteSize = bytes text := by
  rw [String.utf8ByteSize, String.toByteArray_ofList, List.utf8Encode, List.size_toByteArray]
  exact encoded_length text

-- The longest run of whole characters from the front of a word that a slot has room for.
structure Fits (room : Nat) (word kept : List Char) : Prop where
  front : kept <+: word
  within : bytes kept ≤ room
  longest : ∀ other, other <+: word → bytes other ≤ room → other <+: kept

theorem fit_fits (room : Nat) (word : List Char) : Fits room word (fit room word) := by
  refine ⟨?_, bytes_fit room word, ?_⟩
  · induction word generalizing room with
    | nil => exact List.prefix_rfl
    | cons c rest ih =>
      unfold fit
      split
      · exact List.cons_prefix_cons.mpr ⟨rfl, ih _⟩
      · exact List.nil_prefix
  · intro other front within
    induction word generalizing room other with
    | nil => exact front
    | cons c rest ih =>
      rcases List.prefix_cons_iff.mp front with rfl | ⟨others, rfl, behind⟩
      · exact List.nil_prefix
      · simp only [bytes] at within
        rw [fit, if_pos (by omega)]
        exact List.cons_prefix_cons.mpr ⟨rfl, ih _ others behind (by omega)⟩

-- No character takes more than four bytes, so a cut wastes three at most.
theorem fit_waste {room : Nat} {word : List Char} (longer : room < bytes word) :
    room - bytes (fit room word) ≤ 3 := by
  induction word generalizing room with
  | nil => exact absurd longer (Nat.not_lt_zero room)
  | cons c rest ih =>
    have narrow := c.utf8Size_le_four
    simp only [bytes] at longer
    unfold fit
    split
    · have shorter : room - c.utf8Size < bytes rest := by omega
      have later := ih shorter
      simp only [bytes]
      omega
    · simp only [bytes]
      omega

end Text

theorem Token.width_utf8 (text : String) : width text = text.utf8ByteSize := by
  rw [width, ← Text.bytes_string, String.ofList_toList]

namespace Layout

open Text

-- The tokens that fill slots.
def inked (tokens : List Token) : List Token := tokens.filter fun t => !t.isEmpty

-- Each of them with the cursor before it: first the one given, then where the token in front stops.
def slots (cursor : Nat) (tokens : List Token) : List (Nat × Token) :=
  (cursor :: (inked tokens).map Token.stop).zip (inked tokens)

-- What a slot takes with its lead, which is the gap or else a single blank.
def slotWidth (slot : Nat × Token) : Nat :=
  (if slot.1 ≤ slot.2.start then slot.2.start - slot.1 else 1) + slot.2.length

-- No token that fills a slot begins before the cursor.
def Onward (cursor : Nat) (tokens : List Token) : Prop :=
  ∀ slot ∈ slots cursor tokens, slot.1 ≤ slot.2.start

instance (cursor : Nat) (tokens : List Token) : Decidable (Onward cursor tokens) :=
  inferInstanceAs (Decidable (∀ slot ∈ slots cursor tokens, slot.1 ≤ slot.2.start))

theorem mem_inked {tokens : List Token} {t : Token} : t ∈ inked tokens ↔ t ∈ tokens ∧ t.isEmpty = false := by
  simp [inked]

theorem inked_empty {t : Token} (blank : t.isEmpty = true) (rest : List Token) :
    inked (t :: rest) = inked rest :=
  List.filter_cons_of_neg (by simp [blank])

theorem inked_slot {t : Token} (slot : t.isEmpty = false) (rest : List Token) :
    inked (t :: rest) = t :: inked rest :=
  List.filter_cons_of_pos (by simp [slot])

theorem slots_empty {t : Token} (blank : t.isEmpty = true) (cursor : Nat) (rest : List Token) :
    slots cursor (t :: rest) = slots cursor rest := by
  rw [slots, inked_empty blank]
  rfl

theorem slots_slot {t : Token} (slot : t.isEmpty = false) (cursor : Nat) (rest : List Token) :
    slots cursor (t :: rest) = (cursor, t) :: slots t.stop rest := by
  rw [slots, inked_slot slot]
  rfl

-- Whatever the order of the offsets, a layout is as long as its slots and their leads.
theorem bytes_slots (cursor : Nat) (tokens : List Token) :
    bytes (chars cursor tokens) = ((slots cursor tokens).map slotWidth).sum := by
  induction tokens generalizing cursor with
  | nil => rfl
  | cons t rest ih =>
    cases blank : t.isEmpty with
    | true => rw [chars_empty blank, slots_empty blank, ih cursor]
    | false =>
      rw [chars_slot blank, slots_slot blank, bytes_append, bytes_append, fill_exact, bytes_lead, ih t.stop,
        List.map_cons, List.sum_cons, slotWidth]
      dsimp only
      split <;> split <;> omega

theorem onward_slot {t : Token} (slot : t.isEmpty = false) {cursor : Nat} {rest : List Token} :
    Onward cursor (t :: rest) ↔ cursor ≤ t.start ∧ Onward t.stop rest := by
  rw [Onward, slots_slot slot, List.forall_mem_cons]
  rfl

theorem onward_empty {t : Token} (blank : t.isEmpty = true) {cursor : Nat} {rest : List Token} :
    Onward cursor (t :: rest) ↔ Onward cursor rest := by
  rw [Onward, slots_empty blank]
  rfl

theorem Onward.ahead {cursor : Nat} {tokens : List Token} (onward : Onward cursor tokens) {t : Token}
    (member : t ∈ tokens) (slot : t.isEmpty = false) : cursor ≤ t.start := by
  induction tokens generalizing cursor with
  | nil => cases member
  | cons first rest ih =>
    cases blank : first.isEmpty with
    | true =>
      rcases List.mem_cons.mp member with rfl | later
      · rw [blank] at slot
        cases slot
      · exact ih ((onward_empty blank).mp onward) later
    | false =>
      obtain ⟨starts, tail⟩ := (onward_slot blank).mp onward
      rcases List.mem_cons.mp member with rfl | later
      · exact starts
      · have behind := ih tail later
        have ordered := first.ordered
        omega

theorem Onward.forward {cursor : Nat} {tokens : List Token} (onward : Onward cursor tokens) :
    Forward tokens := by
  induction tokens generalizing cursor with
  | nil => exact .nil
  | cons t rest ih =>
    cases blank : t.isEmpty with
    | true =>
      rw [Forward, List.filter_cons_of_neg (by simp [blank])]
      exact ih ((onward_empty blank).mp onward)
    | false =>
      have tail := ((onward_slot blank).mp onward).2
      refine forward_pairwise.mpr ?_
      rw [List.filter_cons_of_pos (by simp [blank])]
      refine List.pairwise_cons.mpr ⟨?_, forward_pairwise.mp (ih tail)⟩
      intro u listed
      obtain ⟨member, slot⟩ := mem_inked.mp listed
      exact tail.ahead member slot

-- The cursor is left by the last token that fills a slot.
theorem finish_last (cursor : Nat) (tokens : List Token) :
    finish cursor tokens = ((inked tokens).getLast?.map Token.stop).getD cursor := by
  induction tokens generalizing cursor with
  | nil => rfl
  | cons t rest ih =>
    cases blank : t.isEmpty with
    | true =>
      simp only [finish, blank, if_true, inked_empty blank]
      exact ih cursor
    | false =>
      simp only [finish, blank, Bool.false_eq_true, if_false, inked_slot blank, List.getLast?_cons]
      rw [ih t.stop]
      cases (inked rest).getLast? <;> rfl

-- A slot holds its own word, wherever the tokens in front of it and behind it stand.
theorem slot_sliced {cursor : Nat} {tokens : List Token} (onward : Onward cursor tokens) {t : Token}
    (member : t ∈ tokens) (slot : t.isEmpty = false) :
    slice (t.start - cursor) (t.stop - cursor) (chars cursor tokens) = some (fill t.length t.text.toList) := by
  obtain ⟨before, after, rfl⟩ := List.append_of_mem member
  have forward : Forward (before ++ ([t] ++ after)) := onward.forward
  have reached : finish cursor before ≤ t.start := forward.reached slot (onward.ahead member slot)
  have alone : chars t.start [t] = fill t.length t.text.toList := by
    rw [chars_slot slot, lead, if_neg (Nat.lt_irrefl _), Nat.sub_self]
    exact List.append_nil _
  have sliced := block_sliced cursor t.start forward
    (fun u inside => onward.ahead (List.mem_append_left _ inside)) reached
    (fun u inside _ => by rw [List.mem_singleton.mp inside]) ⟨t, List.mem_singleton.mpr rfl, slot⟩
  simp only [finish, slot, Bool.false_eq_true, if_false, alone] at sliced
  exact sliced

-- All bytes that no slot takes are blanks.
theorem blank_outside {cursor : Nat} {tokens : List Token} (onward : Onward cursor tokens) {i : Nat}
    {byte : UInt8} (there : (encoded (chars cursor tokens))[i]? = some byte)
    (outside : ∀ t ∈ inked tokens, ¬ (t.start ≤ cursor + i ∧ cursor + i < t.stop)) : byte = 32 := by
  induction tokens generalizing cursor i with
  | nil => cases there
  | cons t rest ih =>
    cases blank : t.isEmpty with
    | true =>
      rw [chars_empty blank] at there
      rw [inked_empty blank] at outside
      exact ih ((onward_empty blank).mp onward) there outside
    | false =>
      obtain ⟨starts, tail⟩ := (onward_slot blank).mp onward
      rw [inked_slot blank] at outside
      obtain ⟨here, later⟩ := List.forall_mem_cons.mp outside
      have reaches : t.start + t.length = t.stop := Nat.add_sub_cancel' t.ordered
      have led : lead cursor t.start = blanks (t.start - cursor) := if_neg (by omega)
      rw [chars_slot blank, led, List.append_assoc, encoded_append, encoded_blanks, encoded_append,
        List.getElem?_append, List.length_replicate, List.getElem?_append, encoded_length, fill_exact] at there
      split at there
      · exact List.eq_of_mem_replicate (List.mem_of_getElem? there)
      · split at there
        · exact absurd ⟨by omega, by omega⟩ here
        · refine ih tail there ?_
          intro u member
          have place : t.stop + (i - (t.start - cursor) - t.length) = cursor + i := by omega
          rw [place]
          exact later u member

-- How a layout is built of slots. Where no token begins before the cursor, each slot is found again at
-- its offsets, and there is nothing besides the slots and blanks.
theorem text_slots (start : Nat) (tokens : List Token) :
    (text start tokens).toUTF8.IsValidUTF8
      ∧ (text start tokens).utf8ByteSize = ((slots start tokens).map slotWidth).sum
      ∧ (Onward start tokens →
        (∀ last ∈ (inked tokens).getLast?, start + (text start tokens).utf8ByteSize = last.stop)
        ∧ (∀ t ∈ inked tokens,
            (∃ kept, Fits t.length t.text.toList kept
              ∧ slice (t.start - start) (t.stop - start) (text start tokens).toList
                = some (kept ++ blanks (t.length - bytes kept))
              ∧ (t.length < t.text.utf8ByteSize → t.length - bytes kept ≤ 3))
            ∧ Boundary (t.start - start) (text start tokens).toList
            ∧ Boundary (t.stop - start) (text start tokens).toList)
        ∧ ∀ i byte, (text start tokens).toUTF8.data.toList[i]? = some byte →
            (∀ t ∈ inked tokens, ¬ (t.start - start ≤ i ∧ i < t.stop - start)) → byte = 32) := by
  have size : (text start tokens).utf8ByteSize = bytes (chars start tokens) := bytes_string _
  have listed : (text start tokens).toList = chars start tokens := String.toList_ofList
  refine ⟨String.isValidUTF8 _, size.trans (bytes_slots start tokens), fun onward => ⟨?_, ?_, ?_⟩⟩
  · intro last ends
    rw [size, bytes_forward start onward.forward fun t member => onward.ahead member, finish_last, ends]
    rfl
  · intro t member
    obtain ⟨inside, slot⟩ := mem_inked.mp member
    have sliced := slot_sliced onward inside slot
    have ordered : t.start - start ≤ t.stop - start := Nat.sub_le_sub_right t.ordered start
    rw [listed]
    refine ⟨⟨fit t.length t.text.toList, fit_fits _ _, sliced, ?_⟩, (slice_some ordered).mp ⟨_, sliced⟩⟩
    rw [← Token.width_utf8]
    exact fit_waste
  · intro i byte there outside
    refine blank_outside onward ((congrArg (·[i]?) (encoded_string _)).symm.trans there) ?_
    intro t member within
    have starts := onward.ahead (mem_inked.mp member).1 (mem_inked.mp member).2
    exact outside t member (by omega)

-- A word cut before a character of four bytes, an empty token out of order, and a word with room to spare.
def slotted : List Token :=
  [.spanning "a😀" (.clamped 5 4), .spanning "ghost" (.clamped 40 0), .spanning "é" (.clamped 11 3)]

theorem slotted_slots : Onward 3 slotted ∧ text 3 slotted = "  a     é "
    ∧ 3 + (text 3 slotted).utf8ByteSize = 14
    ∧ (∃ kept, Fits 4 "a😀".toList kept
      ∧ slice 2 6 (text 3 slotted).toList = some (kept ++ blanks (4 - bytes kept))
      ∧ (4 < "a😀".utf8ByteSize → 4 - bytes kept ≤ 3))
    ∧ ∀ byte, (text 3 slotted).toUTF8.data.toList[6]? = some byte → byte = 32 := by
  have onward : Onward 3 slotted := by decide
  obtain ⟨_, _, laid⟩ := text_slots 3 slotted
  obtain ⟨size, shown, outside⟩ := laid onward
  have word : (.spanning "a😀" (.clamped 5 4)) ∈ inked slotted := by decide
  exact ⟨onward, by decide, size (.spanning "é" (.clamped 11 3)) (by decide), (shown _ word).1,
    fun byte there => outside 6 byte there (by decide)⟩

end Layout

end Marginalia
