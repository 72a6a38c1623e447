import Marginalia.Proofs.Extracts
import Marginalia.Proofs.Layers
import Marginalia.Proofs.WellLaid

namespace Marginalia

namespace Text

section Middles

variable {front first second back : List Char} (same : bytes first = bytes second)

include same

-- Texts that differ in one stretch are cut alike in front of it and behind it.
theorem slice_outside {start stop : Nat} (ordered : start ≤ stop)
    (within : stop ≤ bytes (front ++ (first ++ back)))
    (outside : stop ≤ bytes front ∨ bytes front + bytes first ≤ start) :
    slice start stop (front ++ (second ++ back)) = slice start stop (front ++ (first ++ back)) := by
  rcases outside with before | behind
  · have cut (rest : List Char) : slice start stop (front ++ rest) = slice start stop front := by
      simpa only [bytes, Nat.zero_add, List.nil_append] using slice_part [] rest ordered before
    rw [cut, cut]
  · simp only [bytes_append] at within
    have later : start - (bytes front + bytes first) ≤ stop - (bytes front + bytes first) :=
      Nat.sub_le_sub_right ordered _
    have fits : stop - (bytes front + bytes first) ≤ bytes back := by omega
    have cut (middle : List Char) (size : bytes middle = bytes first) :
        slice start stop (front ++ (middle ++ back))
          = slice (start - (bytes front + bytes first)) (stop - (bytes front + bytes first)) back := by
      have moved := slice_part (front ++ middle) [] later fits
      rw [bytes_append, size, Nat.add_sub_of_le behind, Nat.add_sub_of_le (Nat.le_trans behind ordered)] at moved
      simpa only [List.append_assoc, List.append_nil] using moved
    rw [cut second same.symm, cut first rfl]

theorem encoded_outside {i : Nat} (outside : i < bytes front ∨ bytes front + bytes first ≤ i) :
    (encoded (front ++ (second ++ back)))[i]? = (encoded (front ++ (first ++ back)))[i]? := by
  simp only [encoded_append, List.getElem?_append, encoded_length]
  rcases outside with before | behind
  · rw [if_pos before, if_pos before]
  · rw [if_neg (by omega), if_neg (by omega), if_neg (by omega), if_neg (by omega), same]

end Middles

end Text

-- In a forward layout a word stands in its slot, between what does not depend on it.
theorem Layout.chars_around {cursor : Nat} {before after : List Token} {t : Token}
    (forward : Forward (before ++ t :: after)) (inked : t.isEmpty = false)
    (ahead : ∀ u ∈ before ++ t :: after, u.isEmpty = false → cursor ≤ u.start) :
    ∃ front, Text.bytes front = t.start - cursor ∧ ∀ word : String,
      chars cursor (before ++ t.withText word :: after)
        = front ++ (fill t.length word.toList ++ chars t.stop after) := by
  have starts := ahead t (by simp) inked
  have reached := forward.reached inked starts
  have led := bytes_forward cursor forward.first fun u inside => ahead u (List.mem_append_left _ inside)
  refine ⟨chars cursor before ++ lead (finish cursor before) t.start, ?_, ?_⟩
  · rw [Text.bytes_append, bytes_lead, if_neg (by omega)]
    omega
  · intro word
    have still : (t.withText word).isEmpty = false := inked
    rw [chars_append, chars_slot still, List.append_assoc, List.append_assoc]
    rfl

theorem modify_appended {α : Type} (edit : α → α) (front back : List α) (index : Nat) :
    (front ++ back).modify index edit
      = if index < front.length then front.modify index edit ++ back
        else front ++ back.modify (index - front.length) edit := by
  induction front generalizing index with
  | nil => simp
  | cons x rest ih =>
    cases index with
    | zero => simp
    | succ index =>
      simp only [List.cons_append, List.modify_succ_cons, ih, List.length_cons, Nat.add_lt_add_iff_right,
        Nat.add_sub_add_right]
      split <;> rfl

namespace Document

-- The index that counts across sentences is the one in the list of all tokens.
theorem editToken_tokens (d : Document) (index : Nat) (edit : Token → Token) :
    (d.editToken index edit).tokens = d.tokens.modify index edit := by
  unfold editToken tokens
  dsimp only
  induction d.sentences generalizing index with
  | nil => simp [editSentences]
  | cons s rest ih =>
    rw [List.flatMap_cons, modify_appended, editSentences]
    split
    · rfl
    · rw [List.flatMap_cons, ih]

theorem editSentences_past {edit : Token → Token} {index : Nat} {sentences : List Sentence}
    (past : (sentences.flatMap Sentence.tokens).length ≤ index) : editSentences edit index sentences = sentences := by
  induction sentences generalizing index with
  | nil => rfl
  | cons s rest ih =>
    rw [List.flatMap_cons, List.length_append] at past
    rw [editSentences, if_neg (by omega), ih (by omega)]

theorem tokenCount_exact (d : Document) : d.tokenCount = d.tokens.length := by
  rw [tokens, List.length_flatMap, List.sum_eq_foldl, List.foldl_map]
  rfl

variable {d : Document} {index : Nat} {t : Token}

theorem token_found : (∃ t, d.token? index = some t) ↔ index < d.tokenCount := by
  rw [tokenCount_exact]
  constructor
  · rintro ⟨t, found⟩
    exact (List.getElem?_eq_some_iff.mp found).1
  · intro within
    exact ⟨d.tokens[index], List.getElem?_eq_getElem within⟩

theorem editToken_found (d : Document) (index : Nat) (edit : Token → Token) :
    (d.editToken index edit).token? index = (d.token? index).map edit := by
  rw [token?, editToken_tokens, List.getElem?_modify]
  simp [token?]

theorem editToken_other (d : Document) {index other : Nat} (apart : other ≠ index) (edit : Token → Token) :
    (d.editToken index edit).token? other = d.token? other := by
  rw [token?, editToken_tokens, List.getElem?_modify]
  simp [token?, apart.symm]

-- There is something to edit exactly at the indices of tokens.
theorem edits_found : (∃ edit, d.editToken index edit ≠ d) ↔ index < d.tokenCount := by
  constructor
  · rintro ⟨edit, changes⟩
    rw [tokenCount_exact]
    apply Nat.lt_of_not_le
    intro past
    exact changes (congrArg (fun sentences => { d with sentences }) (editSentences_past past))
  · intro within
    obtain ⟨t, found⟩ := token_found.mpr within
    refine ⟨(Token.withText · (t.text ++ "a")), fun same => ?_⟩
    have edited := editToken_found d index (Token.withText · (t.text ++ "a"))
    rw [same, found] at edited
    have longer := congrArg String.length (congrArg Token.text (Option.some.inj edited))
    simp [Token.withText] at longer

-- What is left of a document when one of its tokens is given another word.
structure Reworded (d : Document) (index : Nat) (t : Token) (word : String) (e : Document) : Prop where
  here : e.token? index = some (t.withText word)
  others : ∀ other, other ≠ index → e.token? other = d.token? other
  frame : e.frame = d.frame
  span : e.span = d.span
  beside : d.SameOverlay e
  size : e.text.utf8ByteSize = d.text.utf8ByteSize
  bytes : ∀ i, ¬ (t.start - d.start ≤ i ∧ i < t.stop - d.start) →
    e.text.toUTF8.data.toList[i]? = d.text.toUTF8.data.toList[i]?
  reads : ∀ s : Span, s.stop ≤ t.start ∨ t.stop ≤ s.start → e.textAt s = d.textAt s

theorem editToken_frame (d : Document) (index : Nat) (word : String) :
    (d.editToken index (Token.withText · word)).frame = d.frame :=
  editSentences_view (Token.withText · word) (fun t => (t.span, t.attachments)) (fun _ => rfl) index d.sentences

-- Reading a range takes the start and the text, and of the text its length and one slice.
theorem textAt_alike {d e : Document} (size : Text.bytes e.chars = Text.bytes d.chars) (start : e.start = d.start)
    (s : Span) (cut : d.Inside s → Text.slice (s.start - d.start) (s.stop - d.start) e.chars
      = Text.slice (s.start - d.start) (s.stop - d.start) d.chars) : e.textAt s = d.textAt s := by
  unfold textAt
  dsimp only
  rw [start, size]
  split
  · rfl
  · rename_i within
    rw [cut (inside_exact.mpr (by omega))]

-- The texts with the old word and with the new one, in the same surroundings and slots.
theorem WellLaid.reworded_parts (laid : d.WellLaid) (found : d.token? index = some t) (word : String) :
    ∃ front back, Text.bytes front = t.start - d.start
      ∧ d.chars = front ++ (Layout.fill t.length t.text.toList ++ back)
      ∧ (d.editToken index (Token.withText · word)).chars = front ++ (Layout.fill t.length word.toList ++ back) := by
  have member := List.mem_of_getElem? found
  have held : d.tokens ≠ [] := List.ne_nil_of_mem member
  obtain ⟨bound, there⟩ := List.getElem?_eq_some_iff.mp found
  obtain ⟨before, u, after, parts, place, edited⟩ := List.exists_of_modify (Token.withText · word) bound
  have same : u = t := by
    rw [← there]
    simp [parts, ← place]
  rw [same] at parts edited
  rw [← editToken_tokens] at edited
  have forward := laid.forward
  rw [parts] at forward
  obtain ⟨front, room, around⟩ := Layout.chars_around forward (laid.inked member) fun u listed _ =>
    (laid.token_bounds (parts ▸ listed)).1
  refine ⟨front, Layout.chars t.stop after, room, ?_, ?_⟩
  · rw [chars_tokens held, parts]
    exact around t.text
  · have still_held : (d.editToken index (Token.withText · word)).tokens ≠ [] := by simp [edited]
    rw [chars_tokens still_held, edited]
    exact around word

theorem WellLaid.reworded (laid : d.WellLaid) (found : d.token? index = some t) (word : String) :
    d.Reworded index t word (d.editToken index (Token.withText · word)) := by
  obtain ⟨front, back, room, old, new⟩ := laid.reworded_parts found word
  have filled : Text.bytes (Layout.fill t.length t.text.toList) = Text.bytes (Layout.fill t.length word.toList) := by
    rw [Layout.fill_exact, Layout.fill_exact]
  have size : Text.bytes (d.editToken index (Token.withText · word)).chars = Text.bytes d.chars := by
    rw [old, new, Text.bytes_append, Text.bytes_append, Text.bytes_append, Text.bytes_append, filled]
  have inside := laid.token_bounds (List.mem_of_getElem? found)
  have ordered := t.ordered
  have reach : Text.bytes front + Text.bytes (Layout.fill t.length t.text.toList) = t.stop - d.start := by
    rw [Layout.fill_exact, room, Token.length, Span.length]
    simp only [Token.start, Token.stop] at *
    omega
  refine ⟨?_, fun other apart => editToken_other d apart _, editToken_frame d index word, rfl, ⟨rfl, rfl, rfl, rfl⟩,
    ?_, ?_, ?_⟩
  · rw [editToken_found, found]
    rfl
  · rw [text_size, text_size, size]
  · intro i outside
    have shown (x : Document) : x.text.toUTF8.data.toList = Text.encoded x.chars := Text.encoded_string x.chars
    rw [shown, shown, old, new]
    exact Text.encoded_outside filled (by omega)
  · intro s apart
    refine textAt_alike size rfl s fun within => ?_
    rw [inside_exact, old] at within
    have forward := s.ordered
    rw [old, new]
    exact Text.slice_outside filled (by omega) (by omega) (by omega)

-- Another word in place of one. Whatever its length and its characters, it stays in its slot. There is a
-- word to replace exactly where there is one to look up, below the count.
theorem reworded_in_slot {d : Document} (laid : d.WellLaid) (index : Nat) (word : String) :
    (∀ t, d.token? index = some t → d.Reworded index t word (d.editToken index (Token.withText · word)))
      ∧ ((∃ t, d.token? index = some t) ↔ index < d.tokenCount)
      ∧ ((∃ edit, d.editToken index edit ≠ d) ↔ index < d.tokenCount) :=
  ⟨fun _ found => laid.reworded found word, token_found, edits_found⟩

-- Two lines of two words and of one. The second word leaves two bytes of its slot free, and what comes in
-- its place fills one of them and is cut before a character of four.
def slack : Document :=
  ((empty ⟨1⟩).addInPlace (.ofTokens [.spanning "ab" (.clamped 3 2), .spanning "c" (.clamped 6 3)])).addInPlace
    (.ofTokens [.spanning "d" (.clamped 10 1)])

theorem slack_reworded : slack.WellLaid ∧ slack.tokenCount = 3 ∧ slack.text = "ab c   d"
    ∧ (slack.editToken 1 (Token.withText · "é😀")).text = "ab é  d"
    ∧ slack.Reworded 1 (.spanning "c" (.clamped 6 3)) "é😀" (slack.editToken 1 (Token.withText · "é😀"))
    ∧ (∃ t, slack.token? 1 = some t) ∧ ∃ edit, slack.editToken 1 edit ≠ slack := by
  have reached : slack.Reached := .addInPlace (.addInPlace (.new _) (.ofTokens _)) (.ofTokens _)
  have laid : slack.WellLaid := ⟨reached.derived, by decide, by decide, Token.chain_pairwise.mpr (by decide)⟩
  obtain ⟨reworded, there, editable⟩ := reworded_in_slot laid 1 "é😀"
  have count : slack.tokenCount = 3 := rfl
  have below : 1 < slack.tokenCount := by decide
  exact ⟨laid, count, by decide, by decide, reworded _ rfl, there.mpr below, editable.mpr below⟩

end Document

end Marginalia
