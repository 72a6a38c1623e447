import Marginalia.Proofs.Overlaps
import Marginalia.Proofs.Regrouping

namespace Marginalia

namespace Span

-- What makes a span or changes the one that is there.
inductive Operation where
  | between (start stop : UInt64)
  | clamped (start length : UInt64)
  | measured (start length : UInt64)
  | emptyAt (position : UInt64)
  | movedTo (start : UInt64)
  | shifted (delta : UInt64)
  | cover (other : Span)
  | withStart (start : UInt64)
  | withStop (stop : UInt64)
  | withLength (length : UInt64)

def Operation.result (s : Span) : Operation → Except RangeFault Span
  | .between start stop => Span.between start.toNat stop.toNat
  | .clamped start length => .ok (Span.clamped start.toNat length.toNat)
  | .measured start length => Span.measured start.toNat length.toNat
  | .emptyAt position => .ok (Span.emptyAt position.toNat)
  | .movedTo start => .ok (s.movedTo start.toNat)
  | .shifted delta => .ok (s.shifted delta.toNat)
  | .cover other => .ok (s.cover other)
  | .withStart start => s.withStart start.toNat
  | .withStop stop => s.withStop stop.toNat
  | .withLength length => .ok (s.withLength length.toNat)

-- What is told, and the span that is there afterwards.
def settle (s : Span) : Except RangeFault Span → Option RangeFault × Span
  | .ok next => (none, next)
  | .error fault => (some fault, s)

def perform (s : Span) (operation : Operation) : Option RangeFault × Span := s.settle (operation.result s)

def run (s : Span) (operations : List Operation) : Span :=
  operations.foldl (fun s operation => (s.perform operation).2) s

end Span

-- The ends of a span as machine words. Nothing but the operations keeps them in order.
structure Register where
  start : UInt64
  stop : UInt64

namespace Register

-- Words are added around the limit. A sum less than its parts has passed it.
def plus (a b : UInt64) : UInt64 := if a + b < a then 18446744073709551615 else a + b

def set (r : Register) (start stop : UInt64) : Option RangeFault × Register :=
  if stop < start then (some (.inverted start.toNat stop.toNat), r) else (none, ⟨start, stop⟩)

def perform (r : Register) : Span.Operation → Option RangeFault × Register
  | .between start stop => r.set start stop
  | .clamped start length => (none, ⟨start, plus start length⟩)
  | .measured start length =>
    if start + length < start then (some (.pastLimit start.toNat length.toNat), r)
    else (none, ⟨start, start + length⟩)
  | .emptyAt position => (none, ⟨position, position⟩)
  | .movedTo start => (none, ⟨start, plus start (r.stop - r.start)⟩)
  | .shifted delta => (none, ⟨plus r.start delta, plus r.stop delta⟩)
  | .cover other => (none, ⟨min r.start (.ofNat other.start), max r.stop (.ofNat other.stop)⟩)
  | .withStart start => r.set start r.stop
  | .withStop stop => r.set r.start stop
  | .withLength length => (none, ⟨r.start, plus r.start length⟩)

def run (r : Register) (operations : List Span.Operation) : Register :=
  operations.foldl (fun r operation => (r.perform operation).2) r

-- The words are those of the span's ends.
structure Stands (r : Register) (s : Span) : Prop where
  start : r.start.toNat = s.start
  stop : r.stop.toNat = s.stop

-- The same is told, and the register stands for the span afterwards.
structure Follows (register : Option RangeFault × Register) (span : Option RangeFault × Span) : Prop where
  told : register.1 = span.1
  stands : register.2.Stands span.2

variable {r : Register} {s : Span}

theorem word_bounded (word : UInt64) : word.toNat ≤ maxOffset := Nat.le_of_lt_succ word.toNat_lt

theorem wraps_exact (a b : UInt64) : a + b < a ↔ maxOffset < a.toNat + b.toNat := by
  have a_bounded := word_bounded a
  have b_bounded := word_bounded b
  rw [UInt64.lt_iff_toNat_lt, UInt64.toNat_add]
  unfold maxOffset at *
  omega

theorem plus_exact (a b : UInt64) : (plus a b).toNat = min (a.toNat + b.toNat) maxOffset := by
  unfold plus
  split
  · rename_i wraps
    have past := (wraps_exact a b).mp wraps
    rw [Nat.min_eq_right (Nat.le_of_lt past)]
    rfl
  · rename_i stays
    have within := Nat.le_of_not_lt (mt (wraps_exact a b).mpr stays)
    rw [Nat.min_eq_left within, UInt64.toNat_add]
    exact Nat.mod_eq_of_lt (Nat.lt_succ_of_le within)

theorem offset_word {offset : Nat} (bounded : offset ≤ maxOffset) : (UInt64.ofNat offset).toNat = offset :=
  UInt64.toNat_ofNat_of_lt' (Nat.lt_succ_of_le bounded)

theorem Stands.ordered (stands : r.Stands s) : r.start ≤ r.stop := by
  rw [UInt64.le_iff_toNat_le, stands.start, stands.stop]
  exact s.ordered

theorem clamped_stands (start length : UInt64) :
    Stands ⟨start, plus start length⟩ (.clamped start.toNat length.toNat) :=
  ⟨(Nat.min_eq_left (word_bounded start)).symm, plus_exact start length⟩

theorem set_follows (stands : r.Stands s) (start stop : UInt64) :
    Follows (r.set start stop) (s.settle (Span.between start.toNat stop.toNat)) := by
  by_cases crossed : stop.toNat < start.toNat
  · rw [set, if_pos (UInt64.lt_iff_toNat_lt.mpr crossed), Span.between, dif_pos crossed]
    exact ⟨rfl, stands⟩
  · rw [set, if_neg (mt UInt64.lt_iff_toNat_lt.mp crossed), Span.between, dif_neg crossed,
      dif_pos (word_bounded stop)]
    exact ⟨rfl, rfl, rfl⟩

-- Each operation on words does what it does on offsets: it tells the same, and its result is the same.
theorem perform_follows (stands : r.Stands s) (operation : Span.Operation) :
    Follows (r.perform operation) (s.perform operation) := by
  have starts := stands.start
  have stops := stands.stop
  cases operation with
  | between start stop => exact set_follows stands start stop
  | clamped start length => exact ⟨rfl, clamped_stands start length⟩
  | measured start length =>
    rw [perform, Span.perform, Span.Operation.result, Span.measured]
    by_cases past : start + length < start
    · have beyond := (wraps_exact start length).mp past
      rw [if_pos past, dif_neg (Nat.not_le_of_lt beyond)]
      exact ⟨rfl, stands⟩
    · have within := Nat.le_of_not_lt (mt (wraps_exact start length).mpr past)
      rw [if_neg past, dif_pos within]
      refine ⟨rfl, rfl, ?_⟩
      rw [UInt64.toNat_add]
      exact Nat.mod_eq_of_lt (Nat.lt_succ_of_le within)
  | emptyAt position =>
    have kept : min position.toNat maxOffset = position.toNat := Nat.min_eq_left (word_bounded position)
    exact ⟨rfl, kept.symm, kept.symm⟩
  | movedTo start =>
    have length : (r.stop - r.start).toNat = s.length := by
      rw [UInt64.toNat_sub_of_le _ _ stands.ordered, starts, stops]
      rfl
    have moved := clamped_stands start (r.stop - r.start)
    rw [length] at moved
    exact ⟨rfl, moved⟩
  | shifted delta =>
    refine ⟨rfl, ?_, ?_⟩
    · rw [perform, plus_exact, starts]
      rfl
    · rw [perform, plus_exact, stops]
      rfl
  | cover other =>
    have bounded := other.bounded
    have ordered := other.ordered
    refine ⟨rfl, ?_, ?_⟩
    · rw [perform, UInt64.toNat_min, starts, offset_word (Nat.le_trans ordered bounded)]
      rfl
    · rw [perform, UInt64.toNat_max, stops, offset_word bounded]
      rfl
  | withStart start =>
    have set := set_follows stands start r.stop
    rw [stops] at set
    exact set
  | withStop stop =>
    have set := set_follows stands r.start stop
    rw [starts] at set
    exact set
  | withLength length =>
    have set := clamped_stands r.start length
    rw [starts] at set
    exact ⟨rfl, set⟩

theorem run_stands (stands : r.Stands s) (operations : List Span.Operation) :
    (r.run operations).Stands (s.run operations) := by
  induction operations generalizing r s with
  | nil => exact stands
  | cons operation rest ih => exact ih (perform_follows stands operation).stands

theorem set_kept {start stop : UInt64} {fault : RangeFault} (refused : (r.set start stop).1 = some fault) :
    (r.set start stop).2 = r := by
  unfold set at *
  split
  · rfl
  · rename_i ordered
    rw [if_neg ordered] at refused
    cases refused

theorem refused_kept {operation : Span.Operation} {fault : RangeFault}
    (refused : (r.perform operation).1 = some fault) : (r.perform operation).2 = r := by
  cases operation with
  | between start stop => exact set_kept refused
  | measured start length =>
    unfold perform at *
    dsimp only at *
    split
    · rfl
    · rename_i within
      rw [if_neg within] at refused
      cases refused
  | withStart start => exact set_kept refused
  | withStop stop => exact set_kept refused
  | clamped _ _ | emptyAt _ | movedTo _ | shifted _ | cover _ | withLength _ => cases refused

end Register

namespace Span

variable {a b outer : Span} {delta : Nat}

-- No offset lies past the limit, so a longer way than that leads nowhere else.
theorem shifted_clamped (s : Span) (delta : Nat) : s.shifted (min delta maxOffset) = s.shifted delta := by
  apply same_ends <;> simp only [shifted] <;> omega

theorem shifted_again (s : Span) (delta more : Nat) :
    (s.shifted delta).shifted more = s.shifted (min (delta + more) maxOffset) := by
  rw [shifted_twice, shifted_clamped, Nat.add_comm]

-- Stopping at the limit keeps the order of offsets, so the least and the greatest end stay so.
theorem cover_shifted (a b : Span) (delta : Nat) :
    (a.cover b).shifted delta = (a.shifted delta).cover (b.shifted delta) := by
  apply same_ends <;> simp only [shifted, cover] <;> omega

theorem cover_regroups (a b c : Span) : (a.cover b).cover c = a.cover (b.cover c) :=
  same_ends (Nat.min_assoc _ _ _) (Nat.max_assoc _ _ _)

theorem cover_swap (a b : Span) : a.cover b = b.cover a := same_ends (Nat.min_comm _ _) (Nat.max_comm _ _)

theorem cover_self (s : Span) : s.cover s = s := same_ends (Nat.min_self _) (Nat.max_self _)

theorem encloses_self (s : Span) : s.encloses s = true := encloses_exact.mpr ⟨Nat.le_refl _, Nat.le_refl _⟩

theorem encloses_cover :
    outer.encloses (a.cover b) = true ↔ outer.encloses a = true ∧ outer.encloses b = true := by
  simp only [encloses_exact, cover, Nat.le_min, Nat.max_le]
  exact and_and_and_comm

theorem overlapLength_le (a b : Span) : a.overlapLength b ≤ a.length := by
  simp only [overlapLength, length]
  omega

theorem overlapLength_whole : a.overlapLength b = b.length ↔ a.encloses b = true ∨ b.isEmpty = true := by
  have ordered := b.ordered
  rw [encloses_exact, isEmpty, beq_iff_eq, overlapLength, length]
  omega

theorem overlapLength_shifted (a_fits : a.stop + delta ≤ maxOffset) (b_fits : b.stop + delta ≤ maxOffset) :
    (a.shifted delta).overlapLength (b.shifted delta) = a.overlapLength b := by
  obtain ⟨a_starts, a_stops⟩ := shifted_ends a_fits
  obtain ⟨b_starts, b_stops⟩ := shifted_ends b_fits
  rw [overlapLength, overlapLength, a_starts, a_stops, b_starts, b_stops, Nat.add_min_add_right,
    Nat.add_max_add_right, Nat.add_sub_add_right]

-- Runs keep the ends in order where words are all there is, and follow the spans to the limit and past it. Shifts
-- add up, covers are least upper bounds that go along with shifts, and overlaps are told by the ends.
theorem saturating_laws (a b c : Span) (delta more : Nat) :
    (∀ r : Register, r.Stands a → ∀ operations : List Operation,
        (r.run operations).Stands (a.run operations)
          ∧ (r.run operations).start ≤ (r.run operations).stop
          ∧ ∀ operation, ((r.run operations).perform operation).1 = ((a.run operations).perform operation).1
            ∧ ∀ fault, ((r.run operations).perform operation).1 = some fault →
              ((r.run operations).perform operation).2 = r.run operations)
      ∧ (a.shifted delta).shifted more = a.shifted (min (delta + more) maxOffset)
      ∧ (a.cover b).shifted delta = (a.shifted delta).cover (b.shifted delta)
      ∧ (a.cover b).cover c = a.cover (b.cover c)
      ∧ a.cover b = b.cover a
      ∧ a.cover a = a
      ∧ ((a.cover b).encloses a = true ∧ (a.cover b).encloses b = true
        ∧ ∀ outer : Span, outer.encloses a = true → outer.encloses b = true → outer.encloses (a.cover b) = true)
      ∧ a.overlapLength b = b.overlapLength a
      ∧ (a.overlapLength b ≤ a.length ∧ a.overlapLength b ≤ b.length)
      ∧ (a.overlapLength b = b.length ↔ a.encloses b = true ∨ b.isEmpty = true)
      ∧ (a.stop + delta ≤ maxOffset → b.stop + delta ≤ maxOffset →
        (a.shifted delta).overlapLength (b.shifted delta) = a.overlapLength b) := by
  have enclosed := encloses_cover.mp (encloses_self (a.cover b))
  have below := overlapLength_le b a
  rw [overlapLength_swap] at below
  refine ⟨?_, shifted_again a delta more, cover_shifted a b delta, cover_regroups a b c, cover_swap a b,
    cover_self a, ⟨enclosed.1, enclosed.2, ?_⟩, overlapLength_swap a b, ⟨overlapLength_le a b, below⟩,
    overlapLength_whole, overlapLength_shifted⟩
  · intro r stands operations
    have after := Register.run_stands stands operations
    exact ⟨after, after.ordered, fun operation =>
      ⟨(Register.perform_follows after operation).told, fun fault => Register.refused_kept⟩⟩
  · exact fun outer first second => encloses_cover.mpr ⟨first, second⟩

-- Two spans that share one position, with room for two more before the limit.
def lower : Span := .clamped 18446744073709551608 3

def upper : Span := .clamped 18446744073709551610 3

def upperWords : Register := ⟨18446744073709551610, 18446744073709551613⟩

-- A shift past the limit takes two of three positions, and no stop before that start is accepted. Up to the limit
-- the shared position stays.
theorem upper_laws : upperWords.Stands upper
    ∧ (upperWords.run [.shifted 4]).Stands (upper.run [.shifted 4])
    ∧ (upper.run [.shifted 4]).length = 1
    ∧ ((upperWords.run [.shifted 4]).perform (.withStop 3)).1 = some (.inverted 18446744073709551614 3)
    ∧ ((upperWords.run [.shifted 4]).perform (.withStop 3)).2 = upperWords.run [.shifted 4]
    ∧ (Span.clamped 5 maxOffset).encloses (upper.cover lower) = true
    ∧ (upper.shifted 2).overlapLength (lower.shifted 2) = 1 := by
  have stands : upperWords.Stands upper := ⟨by decide, by decide⟩
  obtain ⟨runs, _, _, _, _, _, ⟨_, _, least⟩, _, _, _, kept⟩ := saturating_laws upper lower .origin 2 0
  obtain ⟨after, _, outcomes⟩ := runs upperWords stands [.shifted 4]
  have refused : ((upperWords.run [.shifted 4]).perform (.withStop 3)).1 = some (.inverted 18446744073709551614 3) := by
    decide
  exact ⟨stands, after, by decide, refused, (outcomes (.withStop 3)).2 _ refused,
    least _ (by decide) (by decide), (kept (by decide) (by decide)).trans (by decide)⟩

end Span

end Marginalia
