import Marginalia.Layout
import Marginalia.Proofs.Covers
import Marginalia.Proofs.Slices
import Mathlib.Data.List.Chain

namespace Marginalia

namespace Span

theorem isEmpty_false {s : Span} : s.isEmpty = false ↔ s.start < s.stop := by
  have := s.ordered
  simp only [isEmpty, beq_eq_false_iff_ne]
  omega

theorem shifted_ends {s : Span} {delta : Nat} (fits : s.stop + delta ≤ maxOffset) :
    (s.shifted delta).start = s.start + delta ∧ (s.shifted delta).stop = s.stop + delta :=
  ⟨Nat.min_eq_left (Nat.le_trans (Nat.add_le_add_right s.ordered delta) fits), Nat.min_eq_left fits⟩

end Span

namespace Token

theorem isEmpty_false {t : Token} : t.isEmpty = false ↔ t.start < t.stop := Span.isEmpty_false

theorem ordered (t : Token) : t.start ≤ t.stop := t.span.ordered

-- One token ends before the other begins, or where it does.
def Before (a b : Token) : Prop := a.stop ≤ b.start

instance : DecidableRel Before := fun a b => inferInstanceAs (Decidable (a.stop ≤ b.start))

instance : Trans Before Before Before where
  trans {a b c} first second := by
    have := b.ordered
    simp only [Before] at *
    omega

theorem shifted_start {t : Token} {delta : Nat} (fits : t.stop + delta ≤ maxOffset) :
    (t.shifted delta).start = t.start + delta := (Span.shifted_ends fits).1

theorem shifted_stop {t : Token} {delta : Nat} (fits : t.stop + delta ≤ maxOffset) :
    (t.shifted delta).stop = t.stop + delta := (Span.shifted_ends fits).2

theorem shifted_isEmpty {t : Token} {delta : Nat} (fits : t.stop + delta ≤ maxOffset) :
    (t.shifted delta).isEmpty = t.isEmpty := by
  have starts := shifted_start fits
  have stops := shifted_stop fits
  by_cases inked : t.start < t.stop
  · rw [isEmpty_false.mpr inked, isEmpty_false.mpr (by omega)]
  · have blank : ¬ (t.shifted delta).isEmpty = false := mt isEmpty_false.mp (by omega)
    have was_blank : ¬ t.isEmpty = false := mt isEmpty_false.mp inked
    simp only [Bool.not_eq_false] at blank was_blank
    rw [blank, was_blank]

end Token

namespace Layout

open Text

-- Where a layout leaves its cursor: at the end of the last token that fills a slot.
def finish (cursor : Nat) : List Token → Nat
  | [] => cursor
  | t :: rest => finish (if t.isEmpty then cursor else t.stop) rest

-- The tokens that fill slots never run backwards.
def Forward (tokens : List Token) : Prop :=
  (tokens.filter fun t => !t.isEmpty).IsChain Token.Before

theorem chars_empty {t : Token} (blank : t.isEmpty = true) (cursor : Nat) (rest : List Token) :
    chars cursor (t :: rest) = chars cursor rest := by
  simp only [chars, blank, if_true]

theorem chars_slot {t : Token} (inked : t.isEmpty = false) (cursor : Nat) (rest : List Token) :
    chars cursor (t :: rest)
      = lead cursor t.start ++ fill t.length t.text.toList ++ chars t.stop rest := by
  simp only [chars, inked, Bool.false_eq_true, if_false]

theorem chars_append (cursor : Nat) (first second : List Token) :
    chars cursor (first ++ second) = chars cursor first ++ chars (finish cursor first) second := by
  induction first generalizing cursor with
  | nil => rfl
  | cons t rest ih =>
    cases blank : t.isEmpty with
    | true =>
      simp only [List.cons_append, chars_empty blank, finish, blank, if_true]
      exact ih cursor
    | false =>
      simp only [List.cons_append, chars_slot blank, finish, blank, Bool.false_eq_true, if_false, ih,
        List.append_assoc]

theorem finish_le {cursor bound : Nat} {tokens : List Token} (within : cursor ≤ bound)
    (stops : ∀ t ∈ tokens, t.isEmpty = false → t.stop ≤ bound) : finish cursor tokens ≤ bound := by
  induction tokens generalizing cursor with
  | nil => exact within
  | cons t rest ih =>
    apply ih
    · split
      · exact within
      · rename_i inked
        exact stops t (by simp) (by simpa using inked)
    · exact fun u member => stops u (by simp [member])

theorem bytes_lead (cursor start : Nat) :
    bytes (lead cursor start) = if start < cursor then 1 else start - cursor := by
  unfold lead
  split <;> exact bytes_blanks _

theorem forward_pairwise {tokens : List Token} :
    Forward tokens ↔ (tokens.filter fun t => !t.isEmpty).Pairwise Token.Before :=
  List.isChain_iff_pairwise

theorem Forward.tail {t : Token} {rest : List Token} (forward : Forward (t :: rest)) : Forward rest :=
  forward_pairwise.mpr ((forward_pairwise.mp forward).sublist ((List.sublist_cons_self t rest).filter _))

theorem Forward.ahead {t u : Token} {rest : List Token} (forward : Forward (t :: rest))
    (inked : t.isEmpty = false) (member : u ∈ rest) (later : u.isEmpty = false) : t.stop ≤ u.start := by
  have chained := forward_pairwise.mp forward
  rw [List.filter_cons_of_pos (by simp [inked])] at chained
  exact (List.pairwise_cons.mp chained).1 u (List.mem_filter.mpr ⟨member, by simp [later]⟩)

-- Tokens that run forward take as many bytes as their offsets say.
theorem bytes_forward (cursor : Nat) {tokens : List Token} (forward : Forward tokens)
    (ahead : ∀ t ∈ tokens, t.isEmpty = false → cursor ≤ t.start) :
    cursor + bytes (chars cursor tokens) = finish cursor tokens := by
  induction tokens generalizing cursor with
  | nil => rfl
  | cons t rest ih =>
    cases blank : t.isEmpty with
    | true =>
      simp only [chars_empty blank, finish, blank, if_true]
      exact ih cursor forward.tail fun u member => ahead u (by simp [member])
    | false =>
      have reached := ih t.stop forward.tail fun u member => forward.ahead blank member
      have starts := ahead t (by simp) blank
      have ordered := t.span.ordered
      simp only [chars_slot blank, finish, blank, Bool.false_eq_true, if_false, bytes_append,
        bytes_lead, fill_exact]
      rw [if_neg (by omega)]
      simp only [Token.length, Span.length, Token.start, Token.stop] at *
      omega

-- Moving the cursor and all tokens alike, from `old` to `new`, moves nothing within the text.
theorem chars_moved (old new : Nat) {cursor later : Nat} {tokens : List Token} {move : Token → Token}
    (cursors : later + old = cursor + new) (texts : ∀ t ∈ tokens, (move t).text = t.text)
    (starts : ∀ t ∈ tokens, (move t).start + old = t.start + new)
    (stops : ∀ t ∈ tokens, (move t).stop + old = t.stop + new) :
    chars later (tokens.map move) = chars cursor tokens := by
  induction tokens generalizing cursor later with
  | nil => rfl
  | cons t rest ih =>
    have start_here := starts t List.mem_cons_self
    have stop_here := stops t List.mem_cons_self
    have ordered := t.ordered
    have behind : ∀ {after before : Nat}, after + old = before + new →
        chars after (rest.map move) = chars before rest := by
      intro after before same
      exact ih same (fun u member => texts u (List.mem_cons_of_mem _ member))
        (fun u member => starts u (List.mem_cons_of_mem _ member))
        (fun u member => stops u (List.mem_cons_of_mem _ member))
    cases blank : t.isEmpty with
    | true =>
      have still : (move t).isEmpty = true := by
        simp only [Token.isEmpty, Span.isEmpty, beq_iff_eq, Token.start, Token.stop] at *
        omega
      rw [List.map_cons, chars_empty still, chars_empty blank, behind cursors]
    | false =>
      have slot := Token.isEmpty_false.mp blank
      have still : (move t).isEmpty = false := Token.isEmpty_false.mpr (by omega)
      have length : (move t).length = t.length := by
        simp only [Token.length, Span.length, Token.start, Token.stop] at *
        omega
      have led : lead later (move t).start = lead cursor t.start := by
        have back : (move t).start < later ↔ t.start < cursor := by omega
        have gap : (move t).start - later = t.start - cursor := by omega
        simp only [lead, back, gap]
      rw [List.map_cons, chars_slot still, chars_slot blank, led, length, texts t List.mem_cons_self,
        behind stop_here]

theorem chars_shifted {delta : Nat} (cursor : Nat) {tokens : List Token}
    (fits : ∀ t ∈ tokens, t.stop + delta ≤ maxOffset) :
    chars (cursor + delta) (tokens.map (Token.shifted · delta)) = chars cursor tokens :=
  chars_moved 0 delta rfl (fun _ _ => rfl) (fun t member => Token.shifted_start (fits t member))
    fun t member => Token.shifted_stop (fits t member)

-- A cursor that waits further back writes the way to the tokens in blanks.
theorem chars_lead {cursor later : Nat} {tokens : List Token} (back : cursor ≤ later)
    (ahead : ∀ t ∈ tokens, t.isEmpty = false → later ≤ t.start)
    (inked : ∃ t ∈ tokens, t.isEmpty = false) :
    chars cursor tokens = blanks (later - cursor) ++ chars later tokens := by
  induction tokens with
  | nil => simp at inked
  | cons t rest ih =>
    cases blank : t.isEmpty with
    | true =>
      rw [chars_empty blank, chars_empty blank]
      apply ih fun u member => ahead u (by simp [member])
      obtain ⟨u, member, slot⟩ := inked
      rcases List.mem_cons.mp member with rfl | behind
      · rw [blank] at slot
        cases slot
      · exact ⟨u, behind, slot⟩
    | false =>
      have starts := ahead t (by simp) blank
      have gap : lead cursor t.start = blanks (later - cursor) ++ lead later t.start := by
        rw [lead, if_neg (by omega), lead, if_neg (by omega), ← blanks_add]
        congr 1
        omega
      rw [chars_slot blank, chars_slot blank, gap]
      simp only [List.append_assoc]

theorem Forward.first {before after : List Token} (forward : Forward (before ++ after)) : Forward before :=
  forward_pairwise.mpr
    ((forward_pairwise.mp forward).sublist ((List.sublist_append_left before after).filter _))

theorem Forward.last {before after : List Token} (forward : Forward (before ++ after)) : Forward after :=
  forward_pairwise.mpr
    ((forward_pairwise.mp forward).sublist ((List.sublist_append_right before after).filter _))

-- What stands in front of a slot leaves the cursor no further than its start.
theorem Forward.reached {cursor : Nat} {before after : List Token} {t : Token}
    (forward : Forward (before ++ t :: after)) (inked : t.isEmpty = false) (starts : cursor ≤ t.start) :
    finish cursor before ≤ t.start := by
  have chained := forward_pairwise.mp forward
  rw [List.filter_append, List.filter_cons_of_pos (by simp [inked])] at chained
  apply finish_le starts
  intro u inside filled
  exact (List.pairwise_append.mp chained).2.2 u (List.mem_filter.mpr ⟨inside, by simp [filled]⟩) t List.mem_cons_self

-- No slot ends behind the place where a forward layout stops.
theorem Forward.stop_le_finish {cursor : Nat} {tokens : List Token} (forward : Forward tokens)
    {t : Token} (member : t ∈ tokens) (inked : t.isEmpty = false) : t.stop ≤ finish cursor tokens := by
  induction tokens generalizing cursor with
  | nil => cases member
  | cons u rest ih =>
    rcases List.mem_cons.mp member with rfl | later
    · have laid := bytes_forward t.stop forward.tail fun v inside => forward.ahead inked inside
      simp only [finish, inked, Bool.false_eq_true, if_false]
      omega
    · exact ih forward.tail later

-- Tokens that fill the range they cover leave the cursor at its end.
theorem finish_cover {span : Span} {tokens : List Token} (covers : span.IsCover (tokens.map Token.span))
    (forward : Forward tokens) (inked : ∀ t ∈ tokens, t.isEmpty = false) :
    finish span.start tokens = span.stop := by
  apply Nat.le_antisymm
  · exact finish_le span.ordered fun t member _ => (covers.bounds (List.mem_map_of_mem member)).2
  · obtain ⟨t, member, reaches⟩ := covers.last_token
    rw [← reaches]
    exact forward.stop_le_finish member (inked t member)

theorem bytes_cover {span : Span} {tokens : List Token} (covers : span.IsCover (tokens.map Token.span))
    (forward : Forward tokens) (inked : ∀ t ∈ tokens, t.isEmpty = false) :
    span.start + bytes (chars span.start tokens) = span.stop := by
  rw [bytes_forward span.start forward fun t member _ => (covers.bounds (List.mem_map_of_mem member)).1]
  exact finish_cover covers forward inked

-- In a forward layout a run of tokens stands where its offsets say, as if it were laid out alone.
theorem block_sliced (cursor place : Nat) {before block after : List Token}
    (forward : Forward (before ++ (block ++ after)))
    (ahead : ∀ t ∈ before, t.isEmpty = false → cursor ≤ t.start)
    (reached : finish cursor before ≤ place) (starts : ∀ t ∈ block, t.isEmpty = false → place ≤ t.start)
    (inked : ∃ t ∈ block, t.isEmpty = false) :
    slice (place - cursor) (finish place block - cursor) (chars cursor (before ++ (block ++ after)))
      = some (chars place block) := by
  have led := bytes_forward cursor forward.first ahead
  have laid := bytes_forward place forward.last.first starts
  rw [chars_append, chars_append, chars_lead reached starts inked]
  refine slice_exact.mpr ⟨chars cursor before ++ blanks (place - finish cursor before),
    chars (finish (finish cursor before) block) after, ?_, ?_, ?_⟩
  · simp only [List.append_assoc]
  · rw [bytes_append, bytes_blanks]
    omega
  · omega

theorem fit_whole {room : Nat} {word : List Char} (fits : bytes word ≤ room) : fit room word = word := by
  induction word generalizing room with
  | nil => rfl
  | cons c rest ih =>
    simp only [bytes] at fits
    rw [fit, if_pos (by omega), ih (by omega)]

-- A word that takes as many bytes as its slot has stays whole.
theorem fill_whole {room : Nat} {word : List Char} (same : bytes word = room) : fill room word = word := by
  simp only [fill, fit_whole (Nat.le_of_eq same), same, Nat.sub_self]
  exact List.append_nil word

end Layout

end Marginalia
