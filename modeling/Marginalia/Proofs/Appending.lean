import Marginalia.Proofs.Homes
import Marginalia.Proofs.Texts

namespace Marginalia

theorem Span.shifted_zero (s : Span) : s.shifted 0 = s := by
  have ordered := s.ordered
  have bounded := s.bounded
  apply Span.same_ends <;> simp only [Span.shifted] <;> omega

theorem Sentence.shifted_zero (s : Sentence) : s.shifted 0 = s := by
  have still : ∀ t : Token, t.shifted 0 = t := fun t => by simp [Token.shifted, Span.shifted_zero]
  simp [Sentence.shifted, Span.shifted_zero, still]

namespace Document

theorem stop_le_joint (d : Document) : d.stop ≤ d.joint := by
  unfold joint
  split
  · exact Nat.le_refl _
  · split <;> omega

-- The separator is a matter of the last character and of nothing in front of it.
theorem joint_tokens {d : Document} (filled : d.tokens ≠ []) : d.joint =
    if d.chars.getLast? = some ' ' ∨ d.chars.getLast? = some '\n' then d.stop else d.stop + 1 := by
  have some_there : d.isEmpty = false := by simpa [isEmpty] using filled
  simp only [joint, some_there, Bool.false_eq_true, if_false]
  split <;> simp_all

theorem joint_bare {d : Document} (derived : d.Derived) (bare : d.sentences = []) : d.joint = 0 := by
  have blank : d.isEmpty = true := by simp [isEmpty, tokens_bare bare]
  simp [joint, blank, stop, derived.bare bare, Span.origin]

theorem append_bare {a b : Document} (bare : b.sentences = []) :
    (a.append b).span = a.span ∧ (a.append b).sentences = a.sentences := by
  simp [append, bare]

theorem append_onto_bare {a b : Document} (derived : a.Derived) (added : b.Derived)
    (bare : a.sentences = []) : (a.append b).span = b.span ∧ (a.append b).sentences = b.sentences := by
  have same : (a.append b).sentences = b.sentences := by
    simp [bare, joint_bare derived bare, Sentence.shifted_zero]
  refine ⟨?_, same⟩
  have joined := append_derived derived added
  by_cases none_added : b.sentences = []
  · rw [joined.bare (same.trans none_added), added.bare none_added]
  · have covers := joined.whole (same ▸ none_added)
    rw [same] at covers
    exact covers.unique (added.whole none_added)

theorem append_span {a b : Document} (derived : a.Derived) (added : b.Derived)
    (filled : a.sentences ≠ []) (others : b.sentences ≠ []) :
    (a.append b).span = a.span.cover (b.span.shifted a.joint) := by
  have joined := (append_derived derived added).whole (by simp [filled])
  have both := (derived.whole filled).join ((added.whole others).shifted a.joint)
  rw [append_sentences, List.map_append, List.map_map] at joined
  rw [List.map_map] at both
  exact joined.unique both

-- Appended sentences stand behind the end, so the start stays where it was.
theorem append_start {a b : Document} (derived : a.Derived) (added : b.Derived)
    (filled : a.sentences ≠ []) : (a.append b).start = a.start := by
  by_cases bare : b.sentences = []
  · exact congrArg Span.start (append_bare bare).1
  · have := a.stop_le_joint
    have ordered := a.span.ordered
    have bounded := a.span.bounded
    simp only [start, stop, append_span derived added filled bare, Span.cover, Span.shifted] at *
    omega

-- The text of the whole is the one text, blanks and the other text. How many blanks follows from
-- where the layout of the first text stops, which need not be where its range stops.
theorem append_chars {a b : Document} (derived : a.Derived) (added : b.Derived) (filled : a.tokens ≠ [])
    (inked : ∃ t ∈ b.tokens, t.isEmpty = false) (fits : b.stop + a.joint ≤ maxOffset) :
    (a.append b).chars = a.chars
      ++ (Text.blanks (b.start + a.joint - Layout.finish a.start a.tokens) ++ b.chars) := by
  have a_held : a.sentences ≠ [] := mt tokens_bare filled
  obtain ⟨ink, ink_in, ink_slot⟩ := inked
  have b_filled : b.tokens ≠ [] := List.ne_nil_of_mem ink_in
  have token_fits : ∀ t ∈ b.tokens, t.stop + a.joint ≤ maxOffset := fun t member => by
    have := (added.token_bounds member).2
    omega
  have moved_ahead : ∀ t ∈ b.tokens.map (Token.shifted · a.joint), t.isEmpty = false →
      b.start + a.joint ≤ t.start := by
    intro t member _
    obtain ⟨old, old_in, rfl⟩ := List.mem_map.mp member
    rw [Token.shifted_start (token_fits old old_in)]
    have := (added.token_bounds old_in).1
    omega
  have moved_ink : ∃ t ∈ b.tokens.map (Token.shifted · a.joint), t.isEmpty = false :=
    ⟨_, List.mem_map_of_mem ink_in, (Token.shifted_isEmpty (token_fits ink ink_in)).trans ink_slot⟩
  have behind : Layout.finish a.start a.tokens ≤ b.start + a.joint := by
    have := derived.finish_le
    have := a.stop_le_joint
    omega
  have whole : (a.append b).tokens ≠ [] := by simp [filled]
  rw [chars_tokens whole, append_start derived added a_held, append_tokens, Layout.chars_append,
    chars_tokens filled, chars_tokens b_filled,
    Layout.chars_lead behind moved_ahead moved_ink, Layout.chars_shifted b.start token_fits]

-- The first text stays where it is, if its tokens run forward or not.
theorem append_head {a b : Document} (derived : a.Derived) (added : b.Derived) (filled : a.tokens ≠ [])
    (inked : b.sentences = [] ∨ ∃ t ∈ b.tokens, t.isEmpty = false) (fits : b.stop + a.joint ≤ maxOffset) :
    (a.append b).start = a.start ∧ ∃ back, (a.append b).chars = a.chars ++ back := by
  refine ⟨append_start derived added (mt tokens_bare filled), ?_⟩
  rcases inked with bare | inked
  · obtain ⟨span, sentences⟩ := append_bare (a := a) bare
    exact ⟨[], by rw [chars_of_tree span sentences, List.append_nil]⟩
  · exact ⟨_, append_chars derived added filled inked fits⟩

-- The second text moves by the joint, if the tokens of the first run forward.
theorem append_tail {a b : Document} (derived : a.Derived) (added : b.Derived)
    (anchored : a.sentences = [] ∨ a.tokens ≠ []) (forward : Layout.Forward a.tokens)
    (inked : ∃ t ∈ b.tokens, t.isEmpty = false) (fits : b.stop + a.joint ≤ maxOffset) :
    ∃ front, (a.append b).chars = front ++ b.chars
      ∧ (a.append b).start + Text.bytes front = b.start + a.joint := by
  rcases anchored with bare | filled
  · obtain ⟨span, sentences⟩ := append_onto_bare derived added bare
    refine ⟨[], chars_of_tree span sentences, ?_⟩
    simp only [start, span, joint_bare derived bare, Text.bytes, Nat.add_zero]
  · refine ⟨_, (append_chars derived added filled inked fits).trans (List.append_assoc ..).symm, ?_⟩
    have laid := Layout.bytes_forward a.start forward fun t member _ => (derived.token_bounds member).1
    have := derived.finish_le
    have := a.stop_le_joint
    rw [append_start derived added (mt tokens_bare filled), Text.bytes_append, Text.bytes_blanks,
      chars_tokens filled]
    omega

-- A range of the first text holds the same in the whole.
theorem append_textAt_first {a b : Document} (derived : a.Derived) (added : b.Derived)
    (anchored : a.sentences = [] ∨ a.tokens ≠ [])
    (inked : b.sentences = [] ∨ ∃ t ∈ b.tokens, t.isEmpty = false) (fits : b.stop + a.joint ≤ maxOffset)
    {s : Span} {text : String} (filled : s.start < s.stop) (found : a.textAt s = .ok text) :
    (a.append b).textAt s = .ok text := by
  rcases anchored with bare | held
  · exact absurd found (textAt_blank (chars_bare bare) filled text)
  · obtain ⟨same_start, back, whole⟩ := append_head derived added held inked fits
    obtain ⟨starts, stops, sliced⟩ := textAt_exact.mp found
    refine textAt_exact.mpr ⟨by omega, ?_, ?_⟩
    · rw [whole, Text.bytes_append, same_start]
      omega
    · rw [whole, same_start]
      exact Text.slice_before back sliced

-- A range of the second text holds the same in the whole, moved by the joint.
theorem append_textAt_second {a b : Document} (derived : a.Derived) (added : b.Derived)
    (anchored : a.sentences = [] ∨ a.tokens ≠ []) (forward : Layout.Forward a.tokens)
    (inked : b.sentences = [] ∨ ∃ t ∈ b.tokens, t.isEmpty = false) (fits : b.stop + a.joint ≤ maxOffset)
    {s : Span} {text : String} (filled : s.start < s.stop) (room : s.stop + a.joint ≤ maxOffset)
    (found : b.textAt s = .ok text) : (a.append b).textAt (s.shifted a.joint) = .ok text := by
  rcases inked with bare | inked
  · exact absurd found (textAt_blank (chars_bare bare) filled text)
  · obtain ⟨front, whole, place⟩ := append_tail derived added anchored forward inked fits
    obtain ⟨starts, stops, sliced⟩ := textAt_exact.mp found
    have moved_start : (s.shifted a.joint).start = s.start + a.joint := by
      simp only [Span.shifted]
      omega
    have moved_stop : (s.shifted a.joint).stop = s.stop + a.joint := by
      simp only [Span.shifted]
      omega
    refine textAt_exact.mpr ⟨by omega, ?_, ?_⟩
    · rw [whole, Text.bytes_append, moved_stop]
      omega
    · have slot := Text.slice_behind front sliced
      rw [whole, moved_start, moved_stop]
      have start_there : s.start + a.joint - (a.append b).start = Text.bytes front + (s.start - b.start) := by
        omega
      have stop_there : s.stop + a.joint - (a.append b).start = Text.bytes front + (s.stop - b.start) := by
        omega
      rw [start_there, stop_there]
      exact slot

end Document

-- What an append must not change in a note.
def Note.mark (n : Note) : NoteId × Kind × Source × Binary .double × Option String :=
  (n.id, n.kind, n.source, n.confidence, n.label)

namespace Document

-- Every document that a run reaches is homed, so that hypothesis is an invariant and no choice.
theorem append_keeps_notes {a b : Document} (derived : a.Derived) (added : b.Derived)
    (anchored : a.sentences = [] ∨ a.tokens ≠ []) (forward : Layout.Forward a.tokens)
    (inked : b.sentences = [] ∨ ∃ t ∈ b.tokens, t.start < t.stop) (homed : a.Homed)
    (fits : b.stop + a.joint ≤ maxOffset) :
    (∀ (n : Note) (text : String), n.start < n.stop → a.textOf n = .ok text →
        (a.append b).textOf n = .ok text)
      ∧ (∀ (n : Note) (text : String), n.start < n.stop → n.stop + a.joint ≤ maxOffset →
        b.textOf n = .ok text → (a.append b).textOf (n.shifted a.joint) = .ok text)
      ∧ (a.append b).notes.map Note.mark = a.notes.map Note.mark ++ b.notes.map Note.mark
      ∧ (a.append b).notes.map (·.span)
          = a.notes.map (·.span) ++ b.notes.map (fun n => n.span.shifted a.joint)
      ∧ ∀ n ∈ (a.append b).notes, n.document = some a.handle := by
  have slots : b.sentences = [] ∨ ∃ t ∈ b.tokens, t.isEmpty = false := by
    simpa only [Token.isEmpty_false] using inked
  refine ⟨?_, ?_, ?_, ?_, ?_⟩
  · intro n text filled found
    exact append_textAt_first derived added anchored slots fits filled found
  · intro n text filled room found
    exact append_textAt_second derived added anchored forward slots fits filled room found
  · simp [append, Note.mark, Note.shifted, Note.rehomed]
  · simp [append, Note.shifted, Note.rehomed]
  · intro n member
    rw [append_homed homed b n member, append_handle]

-- A text with room behind its last word, and one whose words stand in the wrong order and
-- behind a gap. The note on the second one points past its range, where its text still goes on.
def roomyNote : Note := (NoteBody.plain .mention .gold (.clamped 4 1)).named ⟨1⟩

def roomy : Document :=
  (((empty ⟨1⟩).addInPlace (.ofTokens [.spanning "ab" (.clamped 3 2)])).addInPlace
    (.spanning (.clamped 6 3))).addNote roomyNote

def jumbledNote : Note := (NoteBody.plain .mention .pred (.clamped 10 2)).named ⟨2⟩

def jumbled : Document :=
  ((empty ⟨2⟩).addInPlace
    (.ofTokens [.spanning "é" (.clamped 7 2), .spanning "cd" (.clamped 5 2)])).addNote jumbledNote

theorem roomy_jumbled_keeps_notes :
    (roomy.textOf roomyNote = .ok "b" ∧ (roomy.append jumbled).textOf roomyNote = .ok "b")
      ∧ jumbled.textOf jumbledNote = .ok "cd"
      ∧ (roomy.append jumbled).textOf (jumbledNote.shifted roomy.joint) = .ok "cd" := by
  have made : roomy.Reached := .noted (.addInPlace (.addInPlace (.new _) (.ofTokens _)) (.spanning _)) _
  have other : jumbled.Reached := .noted (.addInPlace (.new _) (.ofTokens _)) _
  obtain ⟨first, second, _⟩ := append_keeps_notes made.derived other.derived (.inr (by decide))
    (Layout.forward_pairwise.mpr (by decide)) (.inr (by decide)) made.homed (by decide)
  exact ⟨⟨by decide, first _ _ (by decide) (by decide)⟩,
    by decide, second _ _ (by decide) (by decide) (by decide)⟩

end Document

end Marginalia
