namespace Marginalia

-- Offsets count bytes of UTF-8 text. None lies past this limit. The ranges below saturate there; a plain
-- sum of offsets does not, and an operation that comes to one past the limit stops without a result.
def maxOffset : Nat := 18446744073709551615

-- Why a range or an index was refused.
inductive RangeFault where
  | inverted (start stop : Nat)
  | noSuchIndex (index count : Nat)
  | outsideText (start stop textStart textStop : Nat)
  | splitsCharacter (start stop : Nat)
  | pastLimit (start length : Nat)
deriving DecidableEq

namespace RangeFault

def message : RangeFault → String
  | .inverted start stop => s!"inverted span: begin {start} is after end {stop}"
  | .noSuchIndex index count => s!"index {index} out of bounds for {count} elements"
  | .outsideText start stop textStart textStop =>
    s!"range {start}..{stop} lies outside the text ({textStart}..{textStop})"
  | .splitsCharacter start stop =>
    s!"range {start}..{stop} does not fall on character boundaries"
  | .pastLimit start length => s!"range starting at {start} with length {length} overflows"

end RangeFault

-- A half-open range of offsets. The fields' order and the limit are part of the type,
-- so no operation below has to check its own result.
structure Span where
  start : Nat
  stop : Nat
  ordered : start ≤ stop
  bounded : stop ≤ maxOffset
deriving DecidableEq

namespace Span

theorem same_ends {a b : Span} (starts : a.start = b.start) (stops : a.stop = b.stop) : a = b := by
  cases a; cases b; simp_all

def origin : Span := ⟨0, 0, Nat.le_refl 0, Nat.zero_le _⟩

instance : Inhabited Span := ⟨origin⟩

def between (start stop : Nat) : Except RangeFault Span :=
  if inverted : stop < start then .error (.inverted start stop)
  else if bounded : stop ≤ maxOffset then .ok ⟨start, stop, Nat.le_of_not_lt inverted, bounded⟩
  else .error (.pastLimit start (stop - start))

-- Both ends are clamped to the limit.
def clamped (start length : Nat) : Span where
  start := min start maxOffset
  stop := min (start + length) maxOffset
  ordered := by omega
  bounded := by omega

def measured (start length : Nat) : Except RangeFault Span :=
  if bounded : start + length ≤ maxOffset then
    .ok ⟨start, start + length, Nat.le_add_right _ _, bounded⟩
  else .error (.pastLimit start length)

def emptyAt (position : Nat) : Span := clamped position 0

def length (s : Span) : Nat := s.stop - s.start

def isEmpty (s : Span) : Bool := s.start == s.stop

-- The setters leave the other end where it is and refuse to cross it.
def withStart (s : Span) (start : Nat) : Except RangeFault Span := between start s.stop

def withStop (s : Span) (stop : Nat) : Except RangeFault Span := between s.start stop

def withLength (s : Span) (length : Nat) : Span := clamped s.start length

def movedTo (s : Span) (start : Nat) : Span := clamped start s.length

-- Each end stops at the limit by itself, so a shift can shorten a span but never invert it.
def shifted (s : Span) (delta : Nat) : Span where
  start := min (s.start + delta) maxOffset
  stop := min (s.stop + delta) maxOffset
  ordered := by have := s.ordered; omega
  bounded := by omega

-- The least span that encloses both.
def cover (a b : Span) : Span where
  start := min a.start b.start
  stop := max a.stop b.stop
  ordered := by have := a.ordered; omega
  bounded := by have := a.bounded; have := b.bounded; omega

def contains (s : Span) (position : Nat) : Bool := s.start ≤ position && position < s.stop

def encloses (outer inner : Span) : Bool := outer.start ≤ inner.start && inner.stop ≤ outer.stop

def overlapLength (a b : Span) : Nat := min a.stop b.stop - max a.start b.start

def overlaps (a b : Span) : Bool := 0 < overlapLength a b

-- By start, then by stop.
def order (a b : Span) : Ordering := (compare a.start b.start).then (compare a.stop b.stop)

def render (s : Span) : String := s!"{s.start}..{s.stop}"

-- The cover of a whole list, absent for the empty list.
def coverAll : List Span → Option Span
  | [] => none
  | first :: rest => some (rest.foldl cover first)

end Span

end Marginalia
