import Marginalia.Span

namespace Marginalia

-- A query window. Unlike a span it may be inverted, and then it selects by the same rules.
structure Window where
  start : Nat
  stop : Nat
deriving DecidableEq

def Span.window (s : Span) : Window := ⟨s.start, s.stop⟩

inductive Policy where
  | enclosed
  | overlapping
deriving DecidableEq

namespace Policy

def ofEnclosed (enclosed : Bool) : Policy := if enclosed then .enclosed else .overlapping

-- Overlapping takes an item that holds the window's start, lies in a window with distinct
-- ends, or reaches the window's stop from before it.
def selects : Policy → Window → Span → Bool
  | .enclosed, w, item => w.start ≤ item.start && item.stop ≤ w.stop
  | .overlapping, w, item =>
    (item.start ≤ w.start && w.start < item.stop)
      || (w.start ≤ item.start && item.stop ≤ w.stop && w.start != w.stop)
      || (item.start < w.stop && w.stop ≤ item.stop)

-- The selected items in their order; `place` says where an item lies.
def select {α : Type} (p : Policy) (w : Window) (place : α → Span) (items : List α) : List α :=
  items.filter fun item => p.selects w (place item)

end Policy

end Marginalia
