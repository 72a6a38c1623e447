import Marginalia.Proofs.WellLaid

namespace Marginalia

namespace Token

-- A token taken from a place that begins at one offset to where a place at another one has it.
structure Moved (old new : Nat) (t u : Token) : Prop where
  text : u.text = t.text
  attachments : u.attachments = t.attachments
  start : u.start + old = t.start + new
  stop : u.stop + old = t.stop + new

variable {old between new : Nat} {t u v : Token}

theorem Moved.refl (place : Nat) (t : Token) : Moved place place t t := ⟨rfl, rfl, rfl, rfl⟩

theorem Moved.trans (first : Moved old between t u) (second : Moved between new u v) :
    Moved old new t v := by
  have starts := first.start
  have stops := first.stop
  have next_starts := second.start
  have next_stops := second.stop
  exact ⟨second.text.trans first.text, second.attachments.trans first.attachments, by omega, by omega⟩

-- Where a token comes to stand is settled by the two places.
theorem Moved.unique (left : Moved old new t u) (right : Moved old new t v) : u = v := by
  have starts := left.start.trans right.start.symm
  have stops := left.stop.trans right.stop.symm
  obtain ⟨text, span, attachments⟩ := u
  obtain ⟨_, other, _⟩ := v
  cases left.text.trans right.text.symm
  cases left.attachments.trans right.attachments.symm
  have same : span = other := Span.same_ends (Nat.add_right_cancel starts) (Nat.add_right_cancel stops)
  rw [same]

theorem Moved.length (moved : Moved old new t u) : u.length = t.length := by
  have starts := moved.start
  have stops := moved.stop
  simp only [Token.length, Span.length, Token.start, Token.stop] at *
  omega

end Token

namespace Sentence

-- A sentence with all its tokens at a new place, and otherwise the same.
structure Placed (s : Sentence) (place : Nat) (moved : Sentence) : Prop where
  start : moved.start = place
  length : moved.length = s.length
  tokens : ∃ move, moved.tokens = s.tokens.map move ∧ ∀ t ∈ s.tokens, Token.Moved s.start place t (move t)

-- How far each token begins from each token.
def distances (s : Sentence) : List (List Int) :=
  s.tokens.map fun t => s.tokens.map fun u => (u.start : Int) - t.start

-- What a move leaves as it is.
structure Kept (s moved : Sentence) : Prop where
  text : moved.text = s.text
  count : moved.tokens.length = s.tokens.length
  words : moved.tokens.map Token.text = s.tokens.map Token.text
  lengths : moved.tokens.map Token.length = s.tokens.map Token.length
  attachments : moved.tokens.map Token.attachments = s.tokens.map Token.attachments
  distances : moved.distances = s.distances

variable {s moved other : Sentence} {place next delta : Nat}

theorem Placed.refl (s : Sentence) : s.Placed s.start s :=
  ⟨rfl, rfl, id, (List.map_id s.tokens).symm, fun t _ => .refl s.start t⟩

theorem Placed.trans (first : s.Placed place moved) (second : moved.Placed next other) : s.Placed next other := by
  obtain ⟨move, tokens, carried⟩ := first.tokens
  obtain ⟨again, retokens, recarried⟩ := second.tokens
  refine ⟨second.start, second.length.trans first.length, again ∘ move, ?_, ?_⟩
  · rw [retokens, tokens, List.map_map]
  · intro t member
    have moved_on := recarried (move t) (tokens ▸ List.mem_map_of_mem member)
    rw [first.start] at moved_on
    exact (carried t member).trans moved_on

theorem Placed.unique (left : s.Placed place moved) (right : s.Placed place other) : moved = other := by
  obtain ⟨move, tokens, carried⟩ := left.tokens
  obtain ⟨again, retokens, recarried⟩ := right.tokens
  have same_tokens : moved.tokens = other.tokens := by
    rw [tokens, retokens]
    exact List.map_congr_left fun t member => (carried t member).unique (recarried t member)
  have same_start := left.start.trans right.start.symm
  have same_length := left.length.trans right.length.symm
  have moved_ordered := moved.span.ordered
  have other_ordered := other.span.ordered
  have same_span : moved.span = other.span := by
    apply Span.same_ends same_start
    simp only [Sentence.start, Sentence.length, Span.length] at same_start same_length
    omega
  cases moved
  cases other
  cases same_span
  cases same_tokens
  rfl

theorem Placed.kept (placed : s.Placed place moved) : s.Kept moved := by
  obtain ⟨move, tokens, carried⟩ := placed.tokens
  refine ⟨?_, ?_, ?_, ?_, ?_, ?_⟩
  · rw [text, text, Layout.text, Layout.text, tokens, placed.start]
    exact congrArg String.ofList (Layout.chars_moved s.start place (Nat.add_comm _ _)
      (fun t member => (carried t member).text) (fun t member => (carried t member).start)
      fun t member => (carried t member).stop)
  · rw [tokens, List.length_map]
  · rw [tokens, List.map_map]
    exact List.map_congr_left fun t member => (carried t member).text
  · rw [tokens, List.map_map]
    exact List.map_congr_left fun t member => (carried t member).length
  · rw [tokens, List.map_map]
    exact List.map_congr_left fun t member => (carried t member).attachments
  · rw [distances, distances, tokens, List.map_map]
    refine List.map_congr_left fun t member => ?_
    rw [Function.comp_apply, List.map_map]
    refine List.map_congr_left fun u there => ?_
    have starts := (carried t member).start
    have other_starts := (carried u there).start
    dsimp only [Function.comp_apply]
    omega

theorem movedTo_ends (fits : place + s.length ≤ maxOffset) :
    (s.movedTo place).start = place ∧ (s.movedTo place).stop = place + s.length := by
  simp only [movedTo, Span.movedTo, Span.clamped, start, stop, length] at *
  omega

theorem movedTo_placed (covered : s.Covered) (fits : place + s.length ≤ maxOffset) :
    s.Placed place (s.movedTo place) := by
  obtain ⟨starts, stops⟩ := movedTo_ends fits
  refine ⟨starts, ?_, _, rfl, ?_⟩
  · simp only [length, Span.length, start, stop] at *
    omega
  · intro t member
    obtain ⟨t_starts, t_stops⟩ := movedTo_token covered fits member
    have inside := (Document.covered_bounds covered member).1
    have ordered := t.ordered
    exact ⟨rfl, rfl, by omega, by omega⟩

theorem shifted_placed (covered : s.Covered) (fits : s.stop + delta ≤ maxOffset) :
    s.Placed (s.start + delta) (s.shifted delta) := by
  have ordered := s.span.ordered
  refine ⟨?_, ?_, _, rfl, ?_⟩
  · simp only [shifted, Span.shifted, start, stop] at *
    omega
  · simp only [shifted, Span.shifted, length, Span.length, stop] at *
    omega
  · intro t member
    have inside := (Document.covered_bounds covered member).2
    have room : t.stop + delta ≤ maxOffset := by omega
    have starts := Token.shifted_start room
    have stops := Token.shifted_stop room
    exact ⟨rfl, rfl, by omega, by omega⟩

theorem movedTo_shifted (covered : s.Covered) (fits : s.stop + delta ≤ maxOffset) :
    s.movedTo (s.start + delta) = s.shifted delta := by
  have ordered := s.span.ordered
  have room : s.start + delta + s.length ≤ maxOffset := by
    simp only [start, stop, length, Span.length] at *
    omega
  exact (movedTo_placed covered room).unique (shifted_placed covered fits)

theorem movedTo_back (covered : s.Covered) (fits : place + s.length ≤ maxOffset) :
    (s.movedTo place).movedTo s.start = s := by
  have away := movedTo_placed covered fits
  have ordered := s.span.ordered
  have bounded := s.span.bounded
  have room : s.start + (s.movedTo place).length ≤ maxOffset := by
    rw [away.length]
    simp only [start, length, Span.length]
    omega
  have home := movedTo_placed (movedTo_covered covered place) room
  exact (away.trans home).unique (.refl s)

-- Both ways to move a sentence leave all but its place alone, and they agree. Where a sentence comes to
-- stand settles what it is, so going back restores it.
theorem moves_agree {s : Sentence} (covers : s.tokens ≠ [] → s.span.IsCover (s.tokens.map Token.span)) :
    (∀ delta, s.stop + delta ≤ maxOffset →
      s.Kept (s.shifted delta)
        ∧ ((s.shifted delta).tokens ≠ [] → (s.shifted delta).span.IsCover ((s.shifted delta).tokens.map Token.span))
        ∧ (s.shifted delta).start = s.start + delta
        ∧ s.movedTo (s.start + delta) = s.shifted delta)
      ∧ ∀ place, place + s.length ≤ maxOffset →
        s.Kept (s.movedTo place)
          ∧ ((s.movedTo place).tokens ≠ [] → (s.movedTo place).span.IsCover ((s.movedTo place).tokens.map Token.span))
          ∧ (s.movedTo place).start = place
          ∧ (s.movedTo place).movedTo s.start = s := by
  have covered := covered_exact.mpr covers
  constructor
  · intro delta fits
    have placed := shifted_placed covered fits
    exact ⟨placed.kept, covered_exact.mp (shifted_covered covered delta), placed.start, movedTo_shifted covered fits⟩
  · intro place fits
    have placed := movedTo_placed covered fits
    exact ⟨placed.kept, covered_exact.mp (movedTo_covered covered place), placed.start, movedTo_back covered fits⟩

-- Offsets that run backwards, a tag, and an empty token; and just the room it takes below the limit.
def jumpyLine : Sentence :=
  .ofTokens [(Token.spanning "b" (.clamped 5 3)).attach "tag" (.tag "X"), .spanning "é" (.clamped 2 2),
    .spanning "" (.emptyAt 9)]

theorem jumpyLine_moves : jumpyLine.span.IsCover (jumpyLine.tokens.map Token.span)
    ∧ jumpyLine.stop + (maxOffset - 9) ≤ maxOffset ∧ (maxOffset - 7) + jumpyLine.length ≤ maxOffset
    ∧ (jumpyLine.shifted (maxOffset - 9)).text = "   b   é"
    ∧ jumpyLine.movedTo (2 + (maxOffset - 9)) = jumpyLine.shifted (maxOffset - 9)
    ∧ (jumpyLine.movedTo (maxOffset - 7)).distances = [[0, -3, 4], [3, 0, 7], [-4, -7, 0]]
    ∧ (jumpyLine.movedTo (maxOffset - 7)).movedTo 2 = jumpyLine := by
  have covers : jumpyLine.span.IsCover (jumpyLine.tokens.map Token.span) := by decide
  have shift_fits : jumpyLine.stop + (maxOffset - 9) ≤ maxOffset := by decide
  have move_fits : (maxOffset - 7) + jumpyLine.length ≤ maxOffset := by decide
  obtain ⟨shifts, moves⟩ := moves_agree fun _ => covers
  obtain ⟨shift_kept, _, _, agree⟩ := shifts (maxOffset - 9) shift_fits
  obtain ⟨move_kept, _, _, back⟩ := moves (maxOffset - 7) move_fits
  exact ⟨covers, shift_fits, move_fits, shift_kept.text.trans (by decide), agree,
    move_kept.distances.trans (by decide), back⟩

end Sentence

end Marginalia
