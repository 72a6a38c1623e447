import Marginalia.Sentence

namespace Marginalia

namespace Span

-- A range from the least start to the greatest stop of its parts. No parts have no cover.
def IsCover (s : Span) (parts : List Span) : Prop :=
  (parts.map start).min? = some s.start ∧ (parts.map stop).max? = some s.stop

instance (s : Span) (parts : List Span) : Decidable (s.IsCover parts) :=
  inferInstanceAs (Decidable (_ ∧ _))

-- The same by bounds that are met, which is what the proofs below work with.
theorem isCover_exact {s : Span} {parts : List Span} : s.IsCover parts ↔
    (∃ p ∈ parts, p.start = s.start) ∧ (∃ p ∈ parts, p.stop = s.stop) ∧
      ∀ p ∈ parts, s.start ≤ p.start ∧ p.stop ≤ s.stop := by
  simp only [IsCover, List.min?_eq_some_iff, List.max?_eq_some_iff, List.mem_map,
    forall_exists_index, and_imp, forall_apply_eq_imp_iff₂]
  constructor
  · rintro ⟨⟨first, least⟩, last, greatest⟩
    exact ⟨first, last, fun p member => ⟨least p member, greatest p member⟩⟩
  · rintro ⟨first, last, bounds⟩
    exact ⟨⟨first, fun p member => (bounds p member).1⟩, last, fun p member => (bounds p member).2⟩

theorem IsCover.filled {s : Span} {parts : List Span} (covers : s.IsCover parts) : parts ≠ [] := by
  rintro rfl
  simp [IsCover] at covers

theorem IsCover.bounds {s p : Span} {parts : List Span} (covers : s.IsCover parts) (member : p ∈ parts) :
    s.start ≤ p.start ∧ p.stop ≤ s.stop :=
  (isCover_exact.mp covers).2.2 p member

theorem IsCover.unique {s t : Span} {parts : List Span} (left : s.IsCover parts) (right : t.IsCover parts) :
    s = t :=
  same_ends (Option.some.inj (left.1.symm.trans right.1)) (Option.some.inj (left.2.symm.trans right.2))

theorem isCover_single (s : Span) : s.IsCover [s] := by simp [IsCover]

theorem foldl_cover_start (first : Span) (rest : List Span) :
    (rest.foldl cover first).start = (rest.map start).foldl min first.start := by
  induction rest generalizing first with
  | nil => rfl
  | cons p rest ih => simp only [List.foldl_cons, List.map_cons, ih, cover]

theorem foldl_cover_stop (first : Span) (rest : List Span) :
    (rest.foldl cover first).stop = (rest.map stop).foldl max first.stop := by
  induction rest generalizing first with
  | nil => rfl
  | cons p rest ih => simp only [List.foldl_cons, List.map_cons, ih, cover]

theorem coverAll_exact {s : Span} {parts : List Span} : coverAll parts = some s ↔ s.IsCover parts := by
  have computed : ∀ cover, coverAll parts = some cover → cover.IsCover parts := by
    intro cover found
    cases parts with
    | nil => cases found
    | cons first rest =>
      cases Option.some.inj found
      simp only [IsCover, List.map_cons, List.min?_cons', List.max?_cons', foldl_cover_start,
        foldl_cover_stop, and_self]
  refine ⟨computed s, fun covers => ?_⟩
  cases found : coverAll parts with
  | none =>
    cases parts with
    | nil => exact absurd rfl covers.filled
    | cons first rest => cases found
  | some cover => rw [(computed cover found).unique covers]

-- Covers of two lists of parts cover both together.
theorem IsCover.join {s t : Span} {left right : List Span} (covers : s.IsCover left)
    (others : t.IsCover right) : (s.cover t).IsCover (left ++ right) := by
  obtain ⟨⟨first, first_in, first_start⟩, ⟨last, last_in, last_stop⟩, bounds⟩ := isCover_exact.mp covers
  obtain ⟨⟨first', first_in', first_start'⟩, ⟨last', last_in', last_stop'⟩, bounds'⟩ :=
    isCover_exact.mp others
  refine isCover_exact.mpr ⟨?_, ?_, ?_⟩
  · rcases Nat.le_total s.start t.start with before | after
    · exact ⟨first, List.mem_append_left _ first_in, by simp only [cover]; omega⟩
    · exact ⟨first', List.mem_append_right _ first_in', by simp only [cover]; omega⟩
  · rcases Nat.le_total t.stop s.stop with inside | beyond
    · exact ⟨last, List.mem_append_left _ last_in, by simp only [cover]; omega⟩
    · exact ⟨last', List.mem_append_right _ last_in', by simp only [cover]; omega⟩
  · intro p member
    simp only [cover]
    rcases List.mem_append.mp member with old | new
    · have := bounds p old
      omega
    · have := bounds' p new
      omega

-- Moving every part by one monotone map of offsets moves the cover by it. Clamping at the limit
-- is such a map too, so this holds of saturating moves as well.
theorem IsCover.moved {s : Span} {parts : List Span} (covers : s.IsCover parts) (moved : Span)
    (place : Nat → Nat) (move : Span → Span) (monotone : ∀ a b, a ≤ b → place a ≤ place b)
    (starts : ∀ p ∈ parts, (move p).start = place p.start)
    (stops : ∀ p ∈ parts, (move p).stop = place p.stop)
    (start : moved.start = place s.start) (stop : moved.stop = place s.stop) :
    moved.IsCover (parts.map move) := by
  obtain ⟨⟨first, first_in, first_start⟩, ⟨last, last_in, last_stop⟩, bounds⟩ := isCover_exact.mp covers
  refine isCover_exact.mpr ⟨?_, ?_, ?_⟩
  · exact ⟨move first, List.mem_map_of_mem first_in, by rw [starts first first_in, first_start, start]⟩
  · exact ⟨move last, List.mem_map_of_mem last_in, by rw [stops last last_in, last_stop, stop]⟩
  · intro p member
    obtain ⟨old, old_in, rfl⟩ := List.mem_map.mp member
    rw [starts old old_in, stops old old_in, start, stop]
    exact ⟨monotone _ _ (bounds old old_in).1, monotone _ _ (bounds old old_in).2⟩

-- The cover of covers covers what they cover.
theorem IsCover.through {s : Span} {groups : List (Span × List Span)}
    (covers : s.IsCover (groups.map Prod.fst)) (each : ∀ g ∈ groups, g.1.IsCover g.2) :
    s.IsCover (groups.flatMap Prod.snd) := by
  obtain ⟨⟨_, first_in, starts⟩, ⟨_, last_in, stops⟩, bounds⟩ := isCover_exact.mp covers
  obtain ⟨first, first_held, rfl⟩ := List.mem_map.mp first_in
  obtain ⟨last, last_held, rfl⟩ := List.mem_map.mp last_in
  obtain ⟨⟨p, p_in, p_starts⟩, _⟩ := isCover_exact.mp (each first first_held)
  obtain ⟨_, ⟨q, q_in, q_stops⟩, _⟩ := isCover_exact.mp (each last last_held)
  refine isCover_exact.mpr ⟨?_, ?_, ?_⟩
  · exact ⟨p, List.mem_flatMap.mpr ⟨first, first_held, p_in⟩, p_starts.trans starts⟩
  · exact ⟨q, List.mem_flatMap.mpr ⟨last, last_held, q_in⟩, q_stops.trans stops⟩
  · intro r member
    obtain ⟨g, held, inside⟩ := List.mem_flatMap.mp member
    have outer := bounds g.1 (List.mem_map_of_mem held)
    have inner := (each g held).bounds inside
    omega

theorem IsCover.first_token {s : Span} {tokens : List Token} (covers : s.IsCover (tokens.map Token.span)) :
    ∃ t ∈ tokens, t.start = s.start := by
  obtain ⟨⟨_, listed, starts⟩, _⟩ := isCover_exact.mp covers
  obtain ⟨t, member, rfl⟩ := List.mem_map.mp listed
  exact ⟨t, member, starts⟩

theorem IsCover.last_token {s : Span} {tokens : List Token} (covers : s.IsCover (tokens.map Token.span)) :
    ∃ t ∈ tokens, t.stop = s.stop := by
  obtain ⟨_, ⟨_, listed, stops⟩, _⟩ := isCover_exact.mp covers
  obtain ⟨t, member, rfl⟩ := List.mem_map.mp listed
  exact ⟨t, member, stops⟩

theorem IsCover.shifted {s : Span} {parts : List Span} (covers : s.IsCover parts) (delta : Nat) :
    (s.shifted delta).IsCover (parts.map (Span.shifted · delta)) :=
  covers.moved _ (fun offset => min (offset + delta) maxOffset) _ (fun _ _ _ => by omega)
    (fun _ _ => rfl) (fun _ _ => rfl) rfl rfl

end Span

namespace Sentence

theorem covered_exact {s : Sentence} :
    s.Covered ↔ (s.tokens ≠ [] → s.span.IsCover (s.tokens.map Token.span)) := by
  constructor
  · intro covered filled
    cases found : Span.coverAll (s.tokens.map Token.span) with
    | none => cases same : s.tokens <;> simp_all [Span.coverAll]
    | some cover =>
      rw [covered cover found]
      exact Span.coverAll_exact.mp found
  · intro covers cover found
    have tokens_cover := Span.coverAll_exact.mp found
    exact (covers fun none_there => tokens_cover.filled (by simp [none_there])).unique tokens_cover

theorem covered_of_none {s : Sentence} (bare : s.tokens = []) : s.Covered :=
  covered_exact.mpr fun filled => absurd bare filled

theorem add_covered {s : Sentence} (covered : s.Covered) (t : Token) : (s.add t).Covered := by
  refine covered_exact.mpr fun _ => ?_
  by_cases bare : s.tokens = []
  · simp only [add, bare, List.isEmpty_nil, if_true, List.nil_append, List.map_cons, List.map_nil]
    exact Span.isCover_single t.span
  · have widened := (covered_exact.mp covered bare).join (Span.isCover_single t.span)
    simpa [add, bare] using widened

theorem foldl_add_covered {s : Sentence} (covered : s.Covered) (tokens : List Token) :
    (tokens.foldl add s).Covered := by
  induction tokens generalizing s with
  | nil => exact covered
  | cons t rest ih => exact ih (add_covered covered t)

theorem ofTokens_covered (tokens : List Token) : (ofTokens tokens).Covered :=
  foldl_add_covered (covered_of_none rfl) tokens

theorem shifted_covered {s : Sentence} (covered : s.Covered) (delta : Nat) : (s.shifted delta).Covered := by
  refine covered_exact.mpr fun filled => ?_
  have covers := covered_exact.mp covered (by simpa [shifted] using filled)
  simpa [shifted, Token.shifted, Function.comp_def] using covers.shifted delta

-- No token of a covered sentence lies before its start, so each keeps its distance from it.
theorem movedTo_covered {s : Sentence} (covered : s.Covered) (start : Nat) : (s.movedTo start).Covered := by
  refine covered_exact.mpr fun filled => ?_
  have covers := covered_exact.mp covered (by simpa [movedTo] using filled)
  have moved := covers.moved (s.span.movedTo start)
    (fun offset => min (start + (offset - s.span.start)) maxOffset)
    (fun p => p.movedTo (start + (p.start - s.span.start)))
    (fun _ _ _ => by omega) (fun _ _ => rfl)
    (fun p member => by
      have inside := covers.bounds member
      have ordered := p.ordered
      simp only [Span.movedTo, Span.clamped, Span.length]
      omega)
    (by simp only [Span.movedTo, Span.clamped]; omega)
    (by simp only [Span.movedTo, Span.clamped, Span.length])
  simpa [movedTo, Token.movedTo, Token.start, Sentence.start, Function.comp_def] using moved

-- Whatever leaves every token's range alone leaves the cover alone.
theorem covered_of_ranges {s t : Sentence} (covered : s.Covered) (span : t.span = s.span)
    (ranges : t.tokens.map Token.span = s.tokens.map Token.span) : t.Covered := by
  unfold Covered
  rw [span, ranges]
  exact covered

theorem mapText_ranges (transform : String → String) (s : Sentence) :
    (s.mapText transform).tokens.map Token.span = s.tokens.map Token.span := by
  simp [mapText, Token.mapText, Function.comp_def]

end Sentence

end Marginalia
