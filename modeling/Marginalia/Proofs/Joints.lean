import Marginalia.Proofs.Appending
import Marginalia.Proofs.Slots

namespace Marginalia

namespace Text

-- What comes behind such a text needs no separator.
def Parted (text : List Char) : Prop := text.getLast? = some ' ' ∨ text.getLast? = some '\n'

instance (text : List Char) : Decidable (Parted text) := inferInstanceAs (Decidable (_ ∨ _))

theorem parted_blanks {text : List Char} {count : Nat} (parted : 0 < count ∨ Parted text) :
    Parted (text ++ blanks count) := by
  cases count with
  | zero =>
    rw [show blanks 0 = [] from rfl, List.append_nil]
    exact parted.resolve_left (Nat.lt_irrefl 0)
  | succ n =>
    left
    rw [blanks, List.replicate_succ', ← List.append_assoc]
    exact List.getLast?_concat

end Text

namespace Document

open Text

-- The blanks between two texts: what is free in front of the second and behind the last word of the
-- first, and one more where the first text does not end in a blank or a line break.
def gap (a b : Document) (last : Token) : Nat :=
  b.start + (a.stop - last.stop) + if Parted a.text.toList then 0 else 1

theorem joint_parted {d : Document} (filled : d.tokens ≠ []) :
    d.joint = d.stop + if Parted d.text.toList then 0 else 1 := by
  have listed : d.text.toList = d.chars := String.toList_ofList
  rw [joint_tokens filled, listed]
  by_cases parted : Parted d.chars
  · rw [if_pos parted]
    exact if_pos parted
  · rw [if_neg parted]
    exact if_neg parted

-- The one text, blanks, and the other text, wherever the words of either stand and whatever the first
-- holds besides words.
theorem append_joins_texts {a b : Document} (derived : a.Derived) (added : b.Derived)
    (inked : ∃ t ∈ a.tokens, t.start < t.stop) (others : ∃ t ∈ b.tokens, t.start < t.stop)
    (fits : b.stop + a.joint ≤ maxOffset) :
    ∃ last ∈ (Layout.inked a.tokens).getLast?, last.stop ≤ a.stop
      ∧ (a.append b).text = a.text ++ (String.ofList (blanks (gap a b last)) ++ b.text)
      ∧ Parted (a.text.toList ++ blanks (gap a b last)) := by
  obtain ⟨word, word_in, word_filled⟩ := inked
  obtain ⟨other, other_in, other_filled⟩ := others
  have filled : a.tokens ≠ [] := List.ne_nil_of_mem word_in
  have words : Layout.inked a.tokens ≠ [] :=
    List.ne_nil_of_mem (Layout.mem_inked.mpr ⟨word_in, Token.isEmpty_false.mpr word_filled⟩)
  obtain ⟨last, last_there⟩ := Option.ne_none_iff_exists'.mp (mt List.getLast?_eq_none_iff.mp words)
  have inside := (Layout.mem_inked.mp (List.mem_of_mem_getLast? last_there)).1
  have within : last.stop ≤ a.stop := (derived.token_bounds inside).2
  have left : Layout.finish a.start a.tokens = last.stop := by
    rw [Layout.finish_last, last_there]
    rfl
  have between : b.start + a.joint - Layout.finish a.start a.tokens = gap a b last := by
    rw [left, joint_parted filled, gap]
    omega
  have joined := append_chars derived added filled ⟨other, other_in, Token.isEmpty_false.mpr other_filled⟩ fits
  rw [between] at joined
  refine ⟨last, last_there, within, ?_, parted_blanks ?_⟩
  · simp only [text, joined, String.ofList_append]
  · by_cases parted : Parted a.text.toList
    · exact .inr parted
    · left
      rw [gap, if_neg parted]
      omega

-- Ten blanks: four behind the last word of the first text, five in front of the second, and the separator.
theorem roomy_jumbled_joined : roomy.text = "ab" ∧ jumbled.text = "  é cd"
    ∧ (roomy.append jumbled).text = "ab" ++ ("          " ++ "  é cd") := by
  have made : roomy.Reached := .noted (.addInPlace (.addInPlace (.new _) (.ofTokens _)) (.spanning _)) _
  have other : jumbled.Reached := .noted (.addInPlace (.new _) (.ofTokens _)) _
  obtain ⟨last, ends, _, joined, _⟩ :=
    append_joins_texts made.derived other.derived (by decide) (by decide) (by decide)
  cases Option.some.inj ends
  exact ⟨by decide, by decide, joined.trans (by decide)⟩

end Document

end Marginalia
