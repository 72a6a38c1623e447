import Marginalia.Proofs.Windows

namespace Marginalia

-- All items that pass and none besides, in their order: the longest sublist of that sort.
structure Picked {α : Type} (passes : α → Prop) (items picked : List α) : Prop where
  order : picked.Sublist items
  passing : ∀ x ∈ picked, passes x
  whole : ∀ other : List α, other.Sublist items → (∀ x ∈ other, passes x) → other.Sublist picked

theorem picked_filter {α : Type} {passes : α → Prop} {p : α → Bool} (decided : ∀ x, p x = true ↔ passes x)
    (items : List α) : Picked passes items (items.filter p) where
  order := List.filter_sublist
  passing x member := (decided x).mp (List.mem_filter.mp member).2
  whole other order passing := by
    have same : other.filter p = other := List.filter_eq_self.mpr fun x member => (decided x).mpr (passing x member)
    rw [← same]
    exact order.filter p

namespace Span

variable {a b : Span}

theorem overlaps_exact : a.overlaps b = true ↔ max a.start b.start < min a.stop b.stop := by
  rw [overlaps, overlapLength, decide_eq_true_eq]
  exact Nat.sub_pos_iff_lt

theorem overlapLength_swap (a b : Span) : a.overlapLength b = b.overlapLength a := by
  rw [overlapLength, overlapLength, Nat.min_comm, Nat.max_comm]

-- The common part begins where the later one begins, so that position is shared if any is.
theorem overlaps_shares : a.overlaps b = true ↔ ∃ position, a.contains position = true ∧ b.contains position = true := by
  simp only [overlaps_exact, contains, Bool.and_eq_true, decide_eq_true_eq]
  constructor
  · intro common
    exact ⟨max a.start b.start, by omega⟩
  · rintro ⟨position, inside, within⟩
    omega

end Span

-- The one window lies in the other.
def Window.Within (inner outer : Window) : Prop := outer.start ≤ inner.start ∧ inner.stop ≤ outer.stop

namespace Policy

variable {w outer : Window} {item : Span}

-- An empty item is left to the middle clause: the outer two need room in the item.
theorem overlapping_empty (wide : w.start < w.stop) (bare : item.start = item.stop) :
    Policy.overlapping.selects w item = true ↔ w.start ≤ item.start ∧ item.stop ≤ w.stop := by
  simp only [selects, Bool.or_eq_true, Bool.and_eq_true, decide_eq_true_eq, bne_iff_ne]
  omega

theorem overlapping_bare (point : w.start = w.stop) (bare : item.start = item.stop) :
    Policy.overlapping.selects w item = false := by
  rw [Bool.eq_false_iff]
  simp only [ne_eq, selects, Bool.or_eq_true, Bool.and_eq_true, decide_eq_true_eq, bne_iff_ne]
  omega

theorem overlapping_overlaps {s : Span} (wide : s.start < s.stop) (filled : item.start < item.stop) :
    Policy.overlapping.selects s.window item = true ↔ item.overlaps s = true := by
  rw [overlapping_wide (w := s.window) wide filled, Span.overlaps_exact]
  simp only [Span.window]
  omega

theorem overlapping_of_enclosed (wide : w.start < w.stop) (inside : Policy.enclosed.selects w item = true) :
    Policy.overlapping.selects w item = true := by
  obtain ⟨starts, stops⟩ := enclosed_exact.mp inside
  rcases Nat.eq_or_lt_of_le item.ordered with bare | filled
  · exact (overlapping_empty wide bare).mpr ⟨starts, stops⟩
  · exact (overlapping_wide wide filled).mpr ⟨by omega, by omega⟩

theorem overlapping_wider (wide : w.start < w.stop) (within : w.Within outer)
    (taken : Policy.overlapping.selects w item = true) : Policy.overlapping.selects outer item = true := by
  obtain ⟨starts, stops⟩ := within
  have wider : outer.start < outer.stop := by omega
  rcases Nat.eq_or_lt_of_le item.ordered with bare | filled
  · obtain ⟨behind, ahead⟩ := (overlapping_empty wide bare).mp taken
    exact (overlapping_empty wider bare).mpr ⟨Nat.le_trans starts behind, Nat.le_trans ahead stops⟩
  · obtain ⟨before, after⟩ := (overlapping_wide wide filled).mp taken
    exact (overlapping_wide wider filled).mpr ⟨Nat.lt_of_lt_of_le before stops, Nat.lt_of_le_of_lt starts after⟩

theorem enclosed_wider (within : w.Within outer) (taken : Policy.enclosed.selects w item = true) :
    Policy.enclosed.selects outer item = true := by
  obtain ⟨starts, stops⟩ := enclosed_exact.mp taken
  exact enclosed_exact.mpr ⟨Nat.le_trans within.1 starts, Nat.le_trans stops within.2⟩

theorem overlapping_at (point : w.start = w.stop) : Policy.overlapping.selects w item = true
    ↔ item.start < item.stop ∧ item.start ≤ w.start ∧ w.start ≤ item.stop := by
  rcases Nat.eq_or_lt_of_le item.ordered with bare | filled
  · simp [overlapping_bare point bare, bare]
  · simp [overlapping_point point filled, filled]

-- Nothing lies between crossed ends, not even an empty item.
theorem enclosed_crossed (crossed : w.stop < w.start) : Policy.enclosed.selects w item = false := by
  rw [Bool.eq_false_iff, ne_eq, enclosed_exact]
  have ordered := item.ordered
  omega

-- What either policy takes, for every item and every window, and what a list of items keeps.
theorem selections_exact (item : Span) (w : Window) :
    (∀ s : Span, s.window = w → s.start < s.stop → item.start < item.stop →
        (Policy.overlapping.selects w item = true ↔ item.overlaps s = true)
          ∧ (item.overlaps s = true ↔ 0 < s.overlapLength item)
          ∧ (item.overlaps s = true ↔ ∃ position, item.contains position = true ∧ s.contains position = true))
      ∧ (w.start < w.stop → item.start = item.stop →
        (Policy.overlapping.selects w item = true ↔ w.start ≤ item.start ∧ item.stop ≤ w.stop))
      ∧ (w.start < w.stop → Policy.enclosed.selects w item = true → Policy.overlapping.selects w item = true)
      ∧ (w.start < w.stop → ∀ (p : Policy) (outer : Window), w.Within outer →
        p.selects w item = true → p.selects outer item = true)
      ∧ (w.start = w.stop → (Policy.overlapping.selects w item = true
        ↔ item.start < item.stop ∧ item.start ≤ w.start ∧ w.start ≤ item.stop))
      ∧ (w.stop < w.start → Policy.enclosed.selects w item = false)
      ∧ ∀ {α : Type} (place : α → Span) (items : List α) (p : Policy),
        Picked (fun x => p.selects w (place x) = true) items (p.select w place items) := by
  refine ⟨?_, overlapping_empty, overlapping_of_enclosed, ?_, overlapping_at, enclosed_crossed, ?_⟩
  · rintro s rfl wide filled
    refine ⟨overlapping_overlaps wide filled, ?_, Span.overlaps_shares⟩
    rw [Span.overlapLength_swap, Span.overlaps, decide_eq_true_eq]
  · intro wide p outer within taken
    cases p with
    | enclosed => exact enclosed_wider within taken
    | overlapping => exact overlapping_wider wide within taken
  · intro α place items p
    exact picked_filter (fun _ => Iff.rfl) items

-- Items that reach into a window, lie in it or end where a point is, and an empty one at a window's stop.
theorem reaching_selections :
    (Policy.overlapping.selects ⟨4, 9⟩ (.clamped 3 2) = true ↔ (Span.clamped 3 2).overlaps (.clamped 4 5) = true)
      ∧ Policy.overlapping.selects ⟨4, 9⟩ (.clamped 9 0) = true
      ∧ Policy.overlapping.selects ⟨4, 9⟩ (.clamped 4 5) = true
      ∧ (∀ p : Policy, p.selects ⟨4, 9⟩ (.clamped 9 0) = true → p.selects ⟨0, 9⟩ (.clamped 9 0) = true)
      ∧ Policy.overlapping.selects ⟨5, 5⟩ (.clamped 3 2) = true
      ∧ Policy.enclosed.selects ⟨9, 4⟩ (.clamped 5 0) = false := by
  obtain ⟨plain, _⟩ := selections_exact (.clamped 3 2) ⟨4, 9⟩
  obtain ⟨_, bare, _, wider, _⟩ := selections_exact (.clamped 9 0) ⟨4, 9⟩
  obtain ⟨_, _, inside, _⟩ := selections_exact (.clamped 4 5) ⟨4, 9⟩
  obtain ⟨_, _, _, _, point, _⟩ := selections_exact (.clamped 3 2) ⟨5, 5⟩
  obtain ⟨_, _, _, _, _, crossed, _⟩ := selections_exact (.clamped 5 0) ⟨9, 4⟩
  exact ⟨(plain (.clamped 4 5) rfl (by decide) (by decide)).1, (bare (by decide) rfl).mpr (by decide),
    inside (by decide) (by decide), fun p => wider (by decide) p ⟨0, 9⟩ ⟨by decide, by decide⟩,
    (point rfl).mpr (by decide), crossed (by decide)⟩

end Policy

end Marginalia
