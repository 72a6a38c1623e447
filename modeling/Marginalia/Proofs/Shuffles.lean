import Marginalia.Proofs.Selections
import Mathlib.Algebra.BigOperators.Group.List.Basic
import Mathlib.Algebra.GroupWithZero.Nat

namespace Marginalia

namespace Generator

variable {σ α : Type} {g : Generator σ} {count index last : Nat} {s next : σ}

theorem draw_lt (g : Generator σ) (count : Nat) (s : σ) : (g.draw count s).1 < words count := by
  unfold draw words width
  split
  · exact UInt32.toNat_lt _
  · exact UInt64.toNat_lt _

-- A draw comes to an end at the first word that is taken, however many are refused before it.
inductive Drawn (g : Generator σ) (count : Nat) : σ → Nat → σ → Prop where
  | taken {s : σ} (taken : takes count (g.draw count s).1 = true) :
      Drawn g count s ((g.draw count s).1 * count / words count) (g.draw count s).2
  | again {s next : σ} {index : Nat} (refused : takes count (g.draw count s).1 = false)
      (later : Drawn g count (g.draw count s).2 index next) : Drawn g count s index next

theorem below_drawn (found : g.below count s = some (index, next)) : g.Drawn count s index next := by
  refine below.partial_correctness g count (fun s found => g.Drawn count s found.1 found.2) ?_ s _ found
  intro later ih s found drawn
  dsimp only at drawn
  split at drawn
  · rename_i taken
    cases drawn
    exact .taken taken
  · rename_i refused
    exact .again (Bool.eq_false_iff.mpr refused) (ih _ _ drawn)

theorem drawn_below (drawn : g.Drawn count s index next) : g.below count s = some (index, next) := by
  induction drawn with
  | taken taken =>
    rw [below]
    exact if_pos taken
  | again refused _ ih =>
    rw [below]
    exact (if_neg (Bool.eq_false_iff.mp refused)).trans ih

-- Nothing is taken for a count of zero, since no low half lies below it.
theorem Drawn.lt (drawn : g.Drawn count s index next) : index < count := by
  induction drawn with
  | @taken s taken =>
    have filled : 0 < count := by
      refine Nat.pos_of_ne_zero fun none_there => ?_
      simp [takes, none_there] at taken
    exact Nat.div_lt_of_lt_mul (Nat.mul_lt_mul_of_pos_right (g.draw_lt count s) filled)
  | again _ _ ih => exact ih

-- Each draw of a shuffle from position `last` down comes to an end.
inductive Completes (g : Generator σ) : Nat → σ → Prop where
  | done {s : σ} : Completes g 0 s
  | drawn {last index : Nat} {s next : σ} (drawn : g.Drawn (last + 2) s index next)
      (rest : Completes g last next) : Completes g (last + 1) s

-- A position and what is drawn for it are both in the list, so nothing but a draw can keep a
-- shuffle from its end.
theorem shuffleFrom_ends (completes : g.Completes last s) (items : Array α) (within : last ≤ items.size - 1) :
    ∃ shuffled next, g.shuffleFrom last items s = some (shuffled, next) := by
  induction completes generalizing items with
  | @done s => exact ⟨items, s, rfl⟩
  | @drawn last index s next drawn _ ih =>
    have bound : last + 1 < items.size ∧ index < items.size := by
      have behind := drawn.lt
      omega
    have swapped_within : last ≤ (items.swap (last + 1) index bound.1 bound.2).size - 1 := by
      rw [Array.size_swap]
      omega
    obtain ⟨shuffled, later, swapped⟩ := ih _ swapped_within
    refine ⟨shuffled, later, Option.bind_eq_some_iff.mpr ⟨(index, next), drawn_below drawn, ?_⟩⟩
    dsimp only
    rw [dif_pos bound, swapped]

theorem shuffleFrom_completes {items shuffled : Array α}
    (ended : g.shuffleFrom last items s = some (shuffled, next)) : g.Completes last s := by
  induction last generalizing items s with
  | zero => exact .done
  | succ last ih =>
    obtain ⟨⟨index, later⟩, drawn, swapped⟩ := Option.bind_eq_some_iff.mp ended
    dsimp only at swapped
    split at swapped
    · exact .drawn (below_drawn drawn) (ih swapped)
    · cases swapped

theorem shuffle_exact (items : List α) :
    (∃ order next, g.shuffle items s = some (order, next)) ↔ g.Completes (items.length - 1) s := by
  constructor
  · rintro ⟨order, next, shuffled⟩
    obtain ⟨_, ended, _⟩ := Option.map_eq_some_iff.mp shuffled
    exact shuffleFrom_completes ended
  · intro completes
    obtain ⟨shuffled, next, ended⟩ := shuffleFrom_ends completes items.toArray (Nat.le_refl _)
    exact ⟨shuffled.toList, next, Option.map_eq_some_iff.mpr ⟨_, ended, rfl⟩⟩

end Generator

theorem size_joined (texts : List String) :
    (" ".intercalate texts).utf8ByteSize = (texts.map String.utf8ByteSize).sum + (texts.length - 1) := by
  induction texts with
  | nil => rfl
  | cons text rest ih =>
    cases rest with
    | nil => simp
    | cons other rest =>
      rw [String.intercalate_cons_cons, String.utf8ByteSize_append, String.utf8ByteSize_append, ih]
      simp only [List.map_cons, List.sum_cons, List.length_cons]
      change _ + 1 + _ = _
      omega

namespace Snippet

variable {σ : Type} {g : Generator σ} {d : Document} {indices order : List Nat} {state next : σ}
  {fault : RangeFault} {s : Snippet}

theorem checkIndices_refused : checkIndices d indices = .error fault ↔
    ∃ index, indices.find? (d.sentences.length ≤ ·) = some index
      ∧ fault = .noSuchIndex index d.sentences.length := by
  induction indices with
  | nil => simp [checkIndices]
  | cons index rest ih =>
    by_cases here : index < d.sentences.length
    · have checked : checkIndices d (index :: rest) = checkIndices d rest := by
        rw [checkIndices, Document.sentence_present here]
        rfl
      rw [checked, ih, List.find?_cons_of_neg (by simpa using here)]
    · have refused : checkIndices d (index :: rest) = .error (.noSuchIndex index d.sentences.length) := by
        rw [checkIndices, Document.sentence_missing (Nat.le_of_not_lt here)]
        rfl
      rw [refused, List.find?_cons_of_pos (by simpa using here)]
      constructor
      · intro same
        exact ⟨index, rfl, (Except.error.inj same).symm⟩
      · rintro ⟨_, same, rfl⟩
        rw [Option.some.inj same]

theorem ofSentences_refused : ofSentences d indices = .error fault ↔
    ∃ index, indices.find? (d.sentences.length ≤ ·) = some index
      ∧ fault = .noSuchIndex index d.sentences.length := by
  rw [← checkIndices_refused]
  cases checked : checkIndices d indices with
  | error other =>
    have refused : ofSentences d indices = .error other := by
      rw [ofSentences, checked]
      rfl
    rw [refused, Except.error.injEq, Except.error.injEq]
  | ok _ =>
    have made := ofSentences_exact.mpr ⟨checkIndices_exact.mp checked, rfl⟩
    rw [made]
    exact ⟨nofun, nofun⟩

theorem shuffledWith_refused : shuffledWith g d indices state = some (.error fault, next) ↔
    next = state ∧ ofSentences d indices = .error fault := by
  unfold shuffledWith
  cases listed : ofSentences d indices with
  | error other =>
    constructor
    · intro same
      cases same
      exact ⟨rfl, rfl⟩
    · rintro ⟨rfl, same⟩
      cases same
      rfl
  | ok s =>
    constructor
    · intro drawn
      obtain ⟨_, _, same⟩ := Option.map_eq_some_iff.mp drawn
      cases same
    · rintro ⟨_, same⟩
      cases same

theorem shuffledWith_made (finds : d.Finds indices) (drawn : g.shuffle indices state = some (order, next)) :
    shuffledWith g d indices state = some (.ok ⟨d, order, none⟩, next) := by
  rw [shuffledWith, ofSentences_exact.mpr ⟨finds, rfl⟩]
  exact Option.map_eq_some_iff.mpr ⟨_, drawn, rfl⟩

-- What a snippet shows that lists the same sentences in another order.
structure Rearranged (listed s : Snippet) : Prop where
  source : s.source = listed.source
  indices : s.indices.Perm listed.indices
  shown : s.sentences.map some = s.indices.map (s.source.sentences[·]?)
  sentences : s.sentences.Perm listed.sentences
  words : (s.tokens.map Token.text).Perm (listed.tokens.map Token.text)
  size : s.text.utf8ByteSize = listed.text.utf8ByteSize
  noteless : Overlay.notes s = []

theorem rearranged (finds : d.Finds indices) (same : order.Perm indices) :
    Rearranged ⟨d, indices, none⟩ ⟨d, order, none⟩ := by
  have found : d.Finds order := fun i member => finds i (same.mem_iff.mp member)
  have sentences : (Snippet.mk d order none).sentences.Perm (Snippet.mk d indices none).sentences :=
    same.filterMap (d.sentences[·]?)
  have texts := sentences.map Sentence.text
  refine ⟨rfl, same, found.shown, sentences, (sentences.flatMap_right Sentence.tokens).map Token.text, ?_, rfl⟩
  change (" ".intercalate _).utf8ByteSize = (" ".intercalate _).utf8ByteSize
  rw [size_joined, size_joined, (texts.map String.utf8ByteSize).sum_eq, texts.length_eq]

-- Whatever the generator, a listed index without a sentence is refused, the first one, with the generator as it was.
-- Otherwise only the generator can keep the snippet from being made, and it is the listed one in another order.
theorem shuffledWith_exact {σ : Type} (g : Generator σ) (d : Document) (indices : List Nat) (state : σ) :
    ((∃ fault next, shuffledWith g d indices state = some (.error fault, next))
        ↔ ∃ index ∈ indices, d.sentences.length ≤ index)
      ∧ (∀ fault next, shuffledWith g d indices state = some (.error fault, next) → next = state
        ∧ ∃ index, indices.find? (d.sentences.length ≤ ·) = some index
          ∧ fault = .noSuchIndex index d.sentences.length)
      ∧ ((∃ s next, shuffledWith g d indices state = some (.ok s, next))
        ↔ (∀ index ∈ indices, index < d.sentences.length) ∧ g.Completes (indices.length - 1) state)
      ∧ ∀ s next, shuffledWith g d indices state = some (.ok s, next) →
        ∃ listed, ofSentences d indices = .ok listed ∧ listed.Rearranged s := by
  refine ⟨?_, ?_, ?_, ?_⟩
  · constructor
    · rintro ⟨fault, next, refused⟩
      obtain ⟨index, first, _⟩ := ofSentences_refused.mp (shuffledWith_refused.mp refused).2
      exact ⟨index, List.mem_of_find?_eq_some first, by simpa using List.find?_some first⟩
    · rintro ⟨index, listed, missing⟩
      have some_missing : (indices.find? (d.sentences.length ≤ ·)).isSome := by
        rw [List.find?_isSome]
        exact ⟨index, listed, by simpa using missing⟩
      obtain ⟨first, found⟩ := Option.isSome_iff_exists.mp some_missing
      exact ⟨_, state, shuffledWith_refused.mpr ⟨rfl, ofSentences_refused.mpr ⟨first, found, rfl⟩⟩⟩
  · intro fault next refused
    obtain ⟨kept, listed⟩ := shuffledWith_refused.mp refused
    exact ⟨kept, ofSentences_refused.mp listed⟩
  · constructor
    · rintro ⟨s, next, made⟩
      obtain ⟨finds, order, drawn, _⟩ := shuffledWith_parts made
      exact ⟨finds, (Generator.shuffle_exact indices).mp ⟨order, next, drawn⟩⟩
    · rintro ⟨finds, completes⟩
      obtain ⟨order, next, drawn⟩ := (Generator.shuffle_exact indices).mpr completes
      exact ⟨_, next, shuffledWith_made finds drawn⟩
  · intro s next made
    obtain ⟨finds, order, drawn, rfl⟩ := shuffledWith_parts made
    exact ⟨_, ofSentences_exact.mpr ⟨finds, rfl⟩, rearranged finds (g.shuffle_perm drawn)⟩

-- Three lines of different lengths, and a note on the empty range where a snippet without one would stand.
def threeLines : Document :=
  ((((Document.empty ⟨1⟩).addInPlace (.ofTokens [.spanning "é" (.clamped 0 2)])).addInPlace
    (.ofTokens [.spanning "b" (.clamped 3 1), .spanning "cd" (.clamped 5 2)])).addInPlace
      (.ofTokens [.spanning "fin." (.clamped 8 4)])).addNote ((NoteBody.plain .mention .gold .origin).named ⟨1⟩)

-- One line listed twice, with a word refused in each draw, and a list with two indices too many.
theorem threeLines_shuffled :
    (∃ s, shuffledWith .congruential threeLines [2, 0, 2, 1] 1 = some (.ok s, 9232803539723513983)
      ∧ s.indices = [2, 1, 0, 2] ∧ s.text = "fin. b cd é fin." ∧ s.text.utf8ByteSize = 17 ∧ Overlay.notes s = [])
      ∧ ∃ fault next, shuffledWith .congruential threeLines [0, 5, 7] 1 = some (.error fault, next)
        ∧ next = 1 ∧ fault = .noSuchIndex 5 3 := by
  obtain ⟨_, _, _, holds⟩ := shuffledWith_exact .congruential threeLines [2, 0, 2, 1] 1
  obtain ⟨refuses, names, _⟩ := shuffledWith_exact .congruential threeLines [0, 5, 7] 1
  have order : Generator.congruential.shuffle [2, 0, 2, 1] 1
      = some ([2, 1, 0, 2], 9232803539723513983) := by cbv
  have finds : threeLines.Finds [2, 0, 2, 1] := by
    unfold Document.Finds
    decide
  have drawn := shuffledWith_made finds order
  obtain ⟨listed, made, same⟩ := holds _ _ drawn
  obtain ⟨fault, next, refused⟩ := refuses.mpr ⟨5, by decide, by decide⟩
  obtain ⟨kept, index, first, told⟩ := names fault next refused
  cases made
  cases first
  exact ⟨⟨_, drawn, rfl, by decide, same.size.trans (by decide), same.noteless⟩, fault, next, refused, kept, told⟩

end Snippet

end Marginalia
