import Marginalia.Proofs.Segmented
import Mathlib.Data.List.SplitBy

namespace Marginalia

theorem Sentence.foldl_add_ofTokens (first more : List Token) :
    more.foldl add (ofTokens first) = ofTokens (first ++ more) :=
  List.foldl_append.symm

namespace Segmenting

open Text

theorem located_pieces (start : Nat) (pieces : List (List Char)) :
    (located start pieces).map Prod.snd = pieces := by
  induction pieces generalizing start with
  | nil => rfl
  | cons piece rest ih => rw [located, List.map_cons, ih]

-- Saturation keeps the order of offsets, so no room is asked for.
theorem tokenOf_before {a b : Nat × List Char} (before : a.1 + bytes a.2 ≤ b.1) :
    (tokenOf a).Before (tokenOf b) := by
  simp only [Token.Before, tokenOf, Token.starting, Token.spanning, Token.start, Token.stop, Span.clamped,
    Token.width, String.toList_ofList]
  omega

theorem gather_none (latest : List Sentence) : gather latest [] = latest := rfl

theorem gather_breaks {tokens : List Token} (held : tokens ≠ []) (breaks : onlyBreaks tokens = true)
    (previous : Sentence) (before : List Sentence) :
    gather (previous :: before) tokens = tokens.foldl .add previous :: before := by
  simp [gather, held, breaks]

theorem gather_inked {tokens : List Token} (held : tokens ≠ []) (inked : onlyBreaks tokens = false)
    (latest : List Sentence) : gather latest tokens = .ofTokens tokens :: latest := by
  cases latest <;> simp [gather, held, inked]

theorem gather_first {tokens : List Token} (held : tokens ≠ []) : gather [] tokens = [.ofTokens tokens] := by
  simp [gather, held]

section Cut

variable (s : Segmenting) (words : Cutter)

theorem tokens_words (piece : Nat × List Char) :
    (s.tokens words piece).map (fun t => t.text.toList) = (words.cut piece.2).filter s.keeps := by
  rw [tokens, List.map_map, ← located_pieces piece.1 (words.cut piece.2), List.filter_map, located_pieces]
  exact List.map_congr_left fun word _ => tokenOf_text word

-- A piece is blank if nothing but breaks is kept of it, and only then: no other word is ever dropped.
theorem onlyBreaks_tokens (piece : Nat × List Char) :
    onlyBreaks (s.tokens words piece) = allBlank piece.2 := by
  have dropped : ∀ word, (!s.keeps word || allBlank word) = allBlank word := by
    intro word
    cases blank : allBlank word <;> simp [keeps, blank]
  calc onlyBreaks (s.tokens words piece)
      = ((s.tokens words piece).map fun t => t.text.toList).all allBlank := by
        rw [List.all_map]
        rfl
    _ = (words.cut piece.2).all fun word => !s.keeps word || allBlank word := by
        rw [tokens_words, List.all_filter]
    _ = (words.cut piece.2).all allBlank := by simp only [dropped]
    _ = allBlank piece.2 := by
        conv_rhs => rw [← words.whole piece.2]
        exact (List.all_flatten).symm

-- The sentence of a run of pieces.
def sentenceOf (run : List (Nat × List Char)) : Sentence := .ofTokens (run.flatMap (s.tokens words))

-- The pieces that leave words, each with the blank ones that come next among them.
def runs (sentences : Cutter) (text : List Char) : List (List (Nat × List Char)) :=
  ((located 0 (sentences.cut text)).filter fun piece => !(s.tokens words piece).isEmpty).splitBy
    fun _ next => allBlank next.2

-- The pieces taken up so far, one after the other.
def gatherAll (latest : List Sentence) (pieces : List (Nat × List Char)) : List Sentence :=
  (pieces.map (s.tokens words)).foldl gather latest

theorem gatherAll_cons (latest : List Sentence) (piece : Nat × List Char) (rest : List (Nat × List Char)) :
    s.gatherAll words latest (piece :: rest) = s.gatherAll words (gather latest (s.tokens words piece)) rest := rfl

theorem gatherAll_held (latest : List Sentence) (pieces : List (Nat × List Char)) :
    s.gatherAll words latest (pieces.filter fun piece => !(s.tokens words piece).isEmpty)
      = s.gatherAll words latest pieces := by
  induction pieces generalizing latest with
  | nil => rfl
  | cons piece rest ih =>
    cases bare : (s.tokens words piece).isEmpty with
    | true =>
      rw [List.filter_cons_of_neg (by simp [bare]), ih, gatherAll_cons, List.isEmpty_iff.mp bare, gather_none]
    | false => rw [List.filter_cons_of_pos (by simp [bare]), gatherAll_cons, ih, gatherAll_cons]

theorem gather_longer {piece : Nat × List Char} (held : s.tokens words piece ≠ [])
    (blank : allBlank piece.2 = true) (run : List (Nat × List Char)) (before : List Sentence) :
    gather (s.sentenceOf words run :: before) (s.tokens words piece)
      = s.sentenceOf words (run ++ [piece]) :: before := by
  have breaks := (s.onlyBreaks_tokens words piece).trans blank
  rw [gather_breaks held breaks, sentenceOf, Sentence.foldl_add_ofTokens, sentenceOf, List.flatMap_append,
    List.flatMap_singleton]

theorem gather_fresh {piece : Nat × List Char} (held : s.tokens words piece ≠ [])
    (inked : allBlank piece.2 = false) (latest : List Sentence) :
    gather latest (s.tokens words piece) = s.sentenceOf words [piece] :: latest := by
  have more := (s.onlyBreaks_tokens words piece).trans inked
  rw [gather_inked held more, sentenceOf, List.flatMap_singleton]

-- Splitting holds the runs latest first as gathering holds the sentences, and these are theirs.
theorem gatherAll_loop {pieces : List (Nat × List Char)} (held : ∀ piece ∈ pieces, s.tokens words piece ≠ [])
    (last : Nat × List Char) (run : List (Nat × List Char)) (before : List (List (Nat × List Char))) :
    (s.gatherAll words (((last :: run).reverse :: before).map (s.sentenceOf words)) pieces).reverse
      = (List.splitBy.loop (fun _ next => allBlank next.2) pieces last run before).map (s.sentenceOf words) := by
  induction pieces generalizing last run before with
  | nil => rw [List.splitBy.loop, List.map_reverse, gatherAll, List.map_nil, List.foldl_nil]
  | cons piece rest ih =>
    obtain ⟨here, later⟩ := List.forall_mem_cons.mp held
    rw [gatherAll_cons, List.map_cons, List.splitBy.loop]
    cases blank : allBlank piece.2 with
    | true =>
      have longer := ih later piece (last :: run) before
      rwa [List.reverse_cons (a := piece), List.map_cons, ← s.gather_longer words here blank] at longer
    | false =>
      have fresh := ih later piece [] ((last :: run).reverse :: before)
      rwa [List.reverse_singleton, List.map_cons, ← s.gather_fresh words here blank, List.map_cons] at fresh

theorem gatherAll_runs {pieces : List (Nat × List Char)} (held : ∀ piece ∈ pieces, s.tokens words piece ≠ []) :
    (s.gatherAll words [] pieces).reverse
      = (pieces.splitBy fun _ next => allBlank next.2).map (s.sentenceOf words) := by
  cases pieces with
  | nil => rfl
  | cons first rest =>
    obtain ⟨here, later⟩ := List.forall_mem_cons.mp held
    have made := s.gatherAll_loop words later first [] []
    rwa [List.reverse_singleton, List.map_singleton, sentenceOf, List.flatMap_singleton,
      ← gather_first here] at made

-- One sentence for every run.
theorem sentencesBy_runs (sentences : Cutter) (text : List Char) :
    s.sentencesBy sentences words text = (s.runs words sentences text).map (s.sentenceOf words) := by
  have taken : s.sentencesBy sentences words text
      = (s.gatherAll words [] (located 0 (sentences.cut text))).reverse := rfl
  rw [taken, ← gatherAll_held, runs]
  apply s.gatherAll_runs words
  intro piece member
  simpa using (List.mem_filter.mp member).2

end Cut

theorem chain_next {α : Type} {P : α → Prop} {items : List α} (chain : items.IsChain fun _ next => P next) :
    ∀ item ∈ items.tail, P item := by
  induction items with
  | nil => exact fun _ member => nomatch member
  | cons first rest ih =>
    cases rest with
    | nil => exact fun _ member => nomatch member
    | cons second later =>
      obtain ⟨here, behind⟩ := List.isChain_cons_cons.mp chain
      exact List.forall_mem_cons.mpr ⟨here, ih behind⟩

section Runs

variable (s : Segmenting) (sentences words : Cutter) (text : List Char)

theorem runs_blank {run : List (Nat × List Char)} (member : run ∈ s.runs words sentences text) :
    ∀ later ∈ run.tail, allBlank later.2 = true :=
  chain_next (List.isChain_of_mem_splitBy member)

theorem runs_inked {run : List (Nat × List Char)} (member : run ∈ (s.runs words sentences text).tail) :
    ∃ first ∈ run, allBlank first.2 = false := by
  have leads : (s.runs words sentences text).IsChain fun _ next => ∃ first ∈ next, allBlank first.2 = false := by
    refine (List.isChain_getLast_head_splitBy _ _).imp ?_
    rintro _ next ⟨_, filled, inked⟩
    exact ⟨next.head filled, List.head_mem filled, inked⟩
  exact chain_next leads run member

theorem sentenceOf_inked {run : List (Nat × List Char)} {piece : Nat × List Char} (member : piece ∈ run)
    (inked : allBlank piece.2 = false) :
    ∃ t ∈ (s.sentenceOf words run).tokens, ∃ c ∈ t.text.toList, isBlank c = false := by
  have more := (s.onlyBreaks_tokens words piece).trans inked
  obtain ⟨t, held, shown⟩ := List.all_eq_false.mp more
  have listed : t ∈ (s.sentenceOf words run).tokens := by
    rw [sentenceOf, Sentence.ofTokens_tokens]
    exact List.mem_flatMap.mpr ⟨piece, member, held⟩
  obtain ⟨c, there, solid⟩ := List.all_eq_false.mp (Bool.not_eq_true _ ▸ shown)
  exact ⟨t, listed, c, there, by simpa using solid⟩

theorem sentencesBy_inked {t : Sentence} (member : t ∈ (s.sentencesBy sentences words text).tail) :
    ∃ token ∈ t.tokens, ∃ c ∈ token.text.toList, isBlank c = false := by
  rw [sentencesBy_runs, ← List.map_tail] at member
  obtain ⟨run, held, rfl⟩ := List.mem_map.mp member
  obtain ⟨piece, there, inked⟩ := s.runs_inked sentences words text held
  exact s.sentenceOf_inked words there inked

theorem sentencesBy_ordered :
    (s.sentencesBy sentences words text).Pairwise fun a b => a.stop ≤ b.start := by
  have kept : ((s.sentencesBy sentences words text).flatMap Sentence.tokens).Pairwise Token.Before := by
    rw [sentencesBy_tokens]
    exact List.pairwise_map.mpr (((spread_ordered sentences words text).filter _).imp tokenOf_before)
  refine (List.pairwise_flatMap.mp kept).2.imp_of_mem ?_
  intro a b a_in b_in before
  obtain ⟨a_covered, a_held⟩ := s.sentencesBy_sound sentences words text a a_in
  obtain ⟨b_covered, b_held⟩ := s.sentencesBy_sound sentences words text b b_in
  obtain ⟨last, last_in, stops⟩ := (Sentence.covered_exact.mp a_covered a_held).last_token
  obtain ⟨first, first_in, starts⟩ := (Sentence.covered_exact.mp b_covered b_held).first_token
  have gap := before last last_in first first_in
  rwa [Token.Before, stops, starts] at gap

end Runs

section Wanted

variable (s : Segmenting) (words : Cutter) (piece : Nat × List Char)

-- The words of a piece that a setting wants, each with the offset it starts at.
def wanted : List (Nat × List Char) :=
  (located piece.1 (words.cut piece.2)).filter fun word => decide (s.Wanted word.2)

theorem tokens_wanted : s.tokens words piece = (s.wanted words piece).map tokenOf := by
  have same : s.wanted words piece = (located piece.1 (words.cut piece.2)).filter fun word => s.keeps word.2 :=
    List.filter_congr fun word _ => by simp [← keeps_exact]
  rw [same]
  rfl

theorem tokens_isEmpty : (s.tokens words piece).isEmpty = decide (s.wanted words piece = []) := by
  rw [tokens_wanted, List.isEmpty_map]
  cases s.wanted words piece <;> simp

theorem tokens_placed : (s.tokens words piece).map (fun t => (t.span, t.text.toList))
    = (s.wanted words piece).map fun word => (.clamped word.1 (bytes word.2), word.2) := by
  rw [tokens_wanted, List.map_map]
  apply List.map_congr_left
  intro word _
  simp [tokenOf, Token.starting, Token.spanning, Token.width]

end Wanted

-- How the pieces of a text share the sentences. A run is the pieces whose wanted words make one sentence, so that
-- no piece is torn between two, and all but the first piece of a run are blank.
theorem sentencesBy_shared (s : Segmenting) (sentences words : Cutter) (text : List Char) :
    (∀ t ∈ s.sentencesBy sentences words text, t.tokens ≠ [] ∧ t.span.IsCover (t.tokens.map Token.span))
      ∧ ((s.sentencesBy sentences words text).Pairwise fun a b => a.stop ≤ b.start)
      ∧ (∀ t ∈ (s.sentencesBy sentences words text).tail,
        ∃ token ∈ t.tokens, ∃ c ∈ token.text.toList, isBlank c = false)
      ∧ ∃ runs : List (List (Nat × List Char)),
        runs.flatten = (located 0 (sentences.cut text)).filter (fun piece => decide (s.wanted words piece ≠ []))
        ∧ (s.sentencesBy sentences words text).map (fun t => t.tokens.map fun token => (token.span, token.text.toList))
          = runs.map (fun run => (run.flatMap (s.wanted words)).map fun word =>
            (.clamped word.1 (bytes word.2), word.2))
        ∧ ∀ run ∈ runs, ∀ later ∈ run.tail, allBlank later.2 = true := by
  refine ⟨?_, s.sentencesBy_ordered sentences words text, fun t => s.sentencesBy_inked sentences words text,
    s.runs words sentences text, ?_, ?_, fun run => s.runs_blank sentences words text⟩
  · intro t member
    obtain ⟨covered, held⟩ := s.sentencesBy_sound sentences words text t member
    exact ⟨held, Sentence.covered_exact.mp covered held⟩
  · rw [runs, List.flatten_splitBy]
    exact List.filter_congr fun piece _ => by simp [tokens_isEmpty]
  · rw [sentencesBy_runs, List.map_map]
    apply List.map_congr_left
    intro run _
    rw [Function.comp_apply, sentenceOf, Sentence.ofTokens_tokens, List.map_flatMap, List.map_flatMap]
    simp only [tokens_placed]

-- Pieces that end with a line break each.
def lines : Cutter where
  cut text := text.splitBy fun c _ => c != '\n'
  whole _ := List.flatten_splitBy _ _
  filled _ _ := List.ne_nil_of_mem_splitBy

def blankLines : List Char := " \na b\n\n \nc".toList

-- The blank line in front makes a sentence of its own. Those behind the first line go to its sentence.
theorem blankLines_shared :
    (standard.sentencesBy lines Splitter.letters blankLines).map
        (fun t => t.tokens.map fun token => (token.start, token.text))
      = [[(1, "\n")], [(2, "a"), (4, "b"), (5, "\n"), (6, "\n"), (8, "\n")], [(9, "c")]]
    ∧ (∀ t ∈ standard.sentencesBy lines Splitter.letters blankLines, t.span.IsCover (t.tokens.map Token.span))
    ∧ ∃ runs : List (List (Nat × List Char)),
      runs.flatten = [(0, [' ', '\n']), (2, ['a', ' ', 'b', '\n']), (6, ['\n']), (7, [' ', '\n']), (9, ['c'])]
      ∧ runs.map (fun run => (run.flatMap (standard.wanted Splitter.letters)).map Prod.snd)
        = [[['\n']], [['a'], ['b'], ['\n'], ['\n'], ['\n']], [['c']]]
      ∧ ∀ run ∈ runs, ∀ later ∈ run.tail, allBlank later.2 = true := by
  obtain ⟨each, _, _, runs, pieces, told, blank⟩ := sentencesBy_shared standard lines Splitter.letters blankLines
  have words := congrArg (List.map (List.map Prod.snd)) told
  rw [List.map_map, List.map_map] at words
  refine ⟨by decide, fun t member => (each t member).2, runs, pieces.trans (by decide), ?_, blank⟩
  simp only [Function.comp_def, List.map_map] at words
  exact words.symm.trans (by decide)

end Segmenting

end Marginalia
