import Marginalia.Proofs.Appending
import Marginalia.Proofs.Layers
import Marginalia.Proofs.Lookups

namespace Marginalia

theorem Span.shifted_twice (s : Span) (first second : Nat) :
    (s.shifted first).shifted second = s.shifted (second + first) := by
  apply Span.same_ends <;> simp only [Span.shifted] <;> omega

theorem Sentence.shifted_twice (s : Sentence) (first second : Nat) :
    (s.shifted first).shifted second = s.shifted (second + first) := by
  simp [Sentence.shifted, Token.shifted, Span.shifted_twice]

theorem Layout.chars_inked (cursor : Nat) {tokens : List Token} (inked : ∃ t ∈ tokens, t.isEmpty = false) :
    Layout.chars cursor tokens ≠ [] := by
  obtain ⟨t, member, slot⟩ := inked
  obtain ⟨before, after, rfl⟩ := List.append_of_mem member
  have room : 0 < t.length := by
    have filled := Token.isEmpty_false.mp slot
    simp only [Token.length, Span.length, Token.start, Token.stop] at *
    omega
  have filled : Layout.fill t.length t.text.toList ≠ [] := by
    intro blank
    have exact_room := Layout.fill_exact t.length t.text.toList
    rw [blank, Text.bytes] at exact_room
    omega
  simp [Layout.chars_append, Layout.chars_slot slot, filled]

namespace Document

-- What a merge finds: the sets of both tables together, and those of one table where the other has none.
def bothTags : Option (Members String) → Option (Members String) → Option (Members String)
  | left, some right => some (Members.union (left.getD .empty) right)
  | left, none => left

theorem bothTags_regroups (a b c : Option (Members String)) :
    bothTags (bothTags a b) c = bothTags a (bothTags b c) := by
  cases c with
  | none => rfl
  | some c =>
    cases b with
    | none => exact congrArg some (Members.union_regroups (a.getD .empty) .empty c)
    | some b => exact congrArg some (Members.union_regroups (a.getD .empty) b c)

theorem find?_mergeTags (a b : TagTable) (source : Source) :
    (mergeTags a b).find? source = bothTags (a.find? source) (b.find? source) := by
  obtain ⟨entries, ascending⟩ := b
  unfold mergeTags Keyed.find?
  dsimp only
  induction entries generalizing a with
  | nil => rfl
  | cons head rest ih =>
    obtain ⟨first, tail⟩ := List.pairwise_cons.mp ascending
    rw [List.foldl_cons, ih _ tail, Keyed.lookup]
    split
    · rename_i before
      have ahead : ∀ entry ∈ rest, compare source entry.1 = .lt := fun entry later =>
        Std.TransCmp.lt_trans before (first entry later)
      rw [Keyed.lookup_ahead ahead]
      exact Keyed.lookup_place_other (by simp [before]) _ _
    · rename_i same
      obtain rfl := Std.LawfulEqCmp.eq_of_compare same
      rw [Keyed.lookup_ahead first]
      exact Keyed.lookup_place_same _ _ _
    · rename_i behind
      have apart : compare source head.1 ≠ .eq := by simp [behind]
      have kept := Keyed.lookup_place_other apart
        (Members.union ((a.find? head.1).getD .empty) head.2) a.entries
      exact congrArg (bothTags · (Keyed.lookup source rest)) kept

theorem mergeTags_regroups (a b c : TagTable) : mergeTags (mergeTags a b) c = mergeTags a (mergeTags b c) := by
  apply Keyed.same_lookups
  intro source
  simp only [find?_mergeTags, bothTags_regroups]

-- What is appended to both together comes to stand behind the second one as if it were alone, moved as that was.
theorem joint_append {a b : Document} (derived : a.Derived) (added : b.Derived)
    (anchored : a.sentences = [] ∨ a.tokens ≠ [])
    (inked : b.sentences = [] ∨ ∃ t ∈ b.tokens, t.isEmpty = false) (fits : b.stop + a.joint ≤ maxOffset) :
    (a.append b).joint = a.joint + b.joint := by
  rcases inked with bare | inked
  · have same : a.SameTree (a.append b) := ⟨(append_bare bare).1, (append_bare bare).2⟩
    rw [same.joint, joint_bare added bare, Nat.add_zero]
  · rcases anchored with bare | filled
    · obtain ⟨span, sentences⟩ := append_onto_bare derived added bare
      have same : b.SameTree (a.append b) := ⟨span, sentences⟩
      rw [same.joint, joint_bare derived bare, Nat.zero_add]
    · obtain ⟨t, member, slot⟩ := inked
      have others : b.tokens ≠ [] := List.ne_nil_of_mem member
      have written : b.chars ≠ [] := by
        rw [chars_tokens others]
        exact Layout.chars_inked b.start ⟨t, member, slot⟩
      have last : (a.append b).chars.getLast? = b.chars.getLast? := by
        rw [append_chars derived added filled ⟨t, member, slot⟩ fits,
          List.getLast?_append_of_ne_nil _ (by simp [written]), List.getLast?_append_of_ne_nil _ written]
      have stop : (a.append b).stop = a.joint + b.stop := by
        have behind := a.stop_le_joint
        simp only [Document.stop, append_span derived added (mt tokens_bare filled) (mt tokens_bare others),
          Span.cover, Span.shifted] at *
        omega
      rw [joint_tokens (by simp [filled]), joint_tokens others, last, stop]
      split <;> omega

theorem append_joined (d other : Document) :
    ((other.sentences.map (Sentence.shifted · d.joint)).foldl addInPlace d).SameTree (d.append other) :=
  ⟨rfl, rfl⟩

theorem append_metadata (d other : Document) : (d.append other).metadata = d.metadata :=
  (foldl_addInPlace_overlay d (other.sentences.map (Sentence.shifted · d.joint))).metadata

-- Both ways the same sentences are taken in the same order, if they are moved alike.
theorem append_twice_tree {a b c : Document} (joint : (a.append b).joint = a.joint + b.joint) :
    (a.append (b.append c)).SameTree ((a.append b).append c) := by
  have listed : (b.append c).sentences.map (Sentence.shifted · a.joint)
      = b.sentences.map (Sentence.shifted · a.joint) ++ c.sentences.map (Sentence.shifted · (a.append b).joint) := by
    simp [joint, Sentence.shifted_twice]
  have first := foldl_addInPlace_tree (append_joined a b) (c.sentences.map (Sentence.shifted · (a.append b).joint))
  have left := first.trans (append_joined (a.append b) c)
  have right := append_joined a (b.append c)
  rw [← List.foldl_append, ← listed] at left
  exact ⟨left.span.trans right.span.symm, left.sentences.trans right.sentences.symm⟩

-- A note that moves twice belongs where it comes last.
theorem append_twice_notes {a b c : Document} (joint : (a.append b).joint = a.joint + b.joint) :
    ((a.append b).append c).notes = (a.append (b.append c)).notes := by
  have moved (n : Note) : (n.shifted (a.joint + b.joint)).rehomed a.handle
      = (((n.shifted b.joint).rehomed b.handle).shifted a.joint).rehomed a.handle := by
    simp [Note.shifted, Note.rehomed, Span.shifted_twice]
  simp only [append_notes, append_handle, joint, moved, List.map_append, List.map_map, List.append_assoc,
    Function.comp_def]

-- Tokens stand in any order here, and what is appended last may be any document.
theorem append_regroups {a b : Document} (derived : a.Derived) (added : b.Derived)
    (anchored : a.sentences = [] ∨ a.tokens ≠ [])
    (inked : b.sentences = [] ∨ ∃ t ∈ b.tokens, t.start < t.stop) (fits : b.stop + a.joint ≤ maxOffset)
    (c : Document) : (a.append b).append c = a.append (b.append c) := by
  have slots : b.sentences = [] ∨ ∃ t ∈ b.tokens, t.isEmpty = false := by
    simpa only [Token.isEmpty_false] using inked
  have joint := joint_append derived added anchored slots fits
  refine same_parts (append_twice_tree joint) ⟨?_, append_twice_notes joint, ?_, ?_⟩
  · simp only [append_handle]
  · simp only [append_metadata]
  · exact mergeTags_regroups a.tags b.tags c.tags

-- A line with its break behind it and a tag, between two texts whose words stand in the wrong order.
def brokenLine : Document :=
  (((empty ⟨3⟩).addInPlace (.ofTokens [.spanning "ab" (.clamped 1 2), .spanning "\n" (.clamped 3 1)])).addNote
    ((NoteBody.plain .passage .user (.clamped 1 2)).named ⟨3⟩)).setTag .user "lines" true

theorem brokenLine_regroups : jumbled.joint = 10 ∧ brokenLine.joint = 4
    ∧ (jumbled.append brokenLine).append jumbled = jumbled.append (brokenLine.append jumbled)
    ∧ ((jumbled.append brokenLine).append jumbled).text = "  é cd    ab\n       é cd"
    ∧ ((jumbled.append brokenLine).append jumbled).notes.map (·.span.start) = [10, 11, 24] := by
  have outer : jumbled.Reached := .noted (.addInPlace (.new _) (.ofTokens _)) _
  have inner : brokenLine.Reached := .tagged (.noted (.addInPlace (.new _) (.ofTokens _)) _) _ _ _
  have regrouped := append_regroups outer.derived inner.derived (.inr (by decide)) (.inr (by decide)) (by decide) jumbled
  exact ⟨by decide, by decide, regrouped, by decide, by decide⟩

end Document

end Marginalia
