import Marginalia.Note
import Marginalia.Policy

namespace Marginalia

inductive KindMatch where
  | exactly (kind : Kind)
  | under (ancestor : Kind)
deriving DecidableEq

def KindMatch.accepts : KindMatch → Kind → Bool
  | .exactly expected, kind => kind == expected
  | .under ancestor, kind => kind.isA ancestor

-- Conditions on a note. All that are set have to hold; a later setting replaces an earlier one.
structure Filter where
  source : Option Source
  kind : Option KindMatch
deriving DecidableEq

namespace Filter

def any : Filter := ⟨none, none⟩

def withSource (f : Filter) (source : Source) : Filter := { f with source := some source }

def withKind (f : Filter) (kind : Kind) : Filter := { f with kind := some (.exactly kind) }

def withKindUnder (f : Filter) (kind : Kind) : Filter := { f with kind := some (.under kind) }

def accepts (f : Filter) (n : Note) : Bool :=
  f.source.all (n.source == ·) && f.kind.all (·.accepts n.kind)

end Filter

-- Whatever shows notes in the order they were added. All queries go through that list.
class Overlay (α : Type) where
  notes : α → List Note

namespace Overlay

variable {α : Type} [Overlay α]

def matching (o : α) (f : Filter) : List Note := (notes o).filter f.accepts

def bySource (o : α) (source : Source) : List Note := matching o (Filter.any.withSource source)

def ofKind (o : α) (kind : Kind) (under : Bool) : List Note :=
  matching o (if under then Filter.any.withKindUnder kind else Filter.any.withKind kind)

def bySourceAndKind (o : α) (source : Source) (kind : Kind) : List Note :=
  matching o ((Filter.any.withSource source).withKind kind)

-- The notes that lie in the window with both ends.
def within (o : α) (w : Window) : List Note := Policy.enclosed.select w (·.span) (notes o)

def count (o : α) (f : Filter) : Nat := (matching o f).length

def countBySource (o : α) (source : Source) : Nat := (bySource o source).length

def countOfKind (o : α) (kind : Kind) (under : Bool) : Nat := (ofKind o kind under).length

def countBySourceAndKind (o : α) (source : Source) (kind : Kind) : Nat :=
  (bySourceAndKind o source kind).length

instance : Overlay (List Note) := ⟨id⟩

end Overlay

end Marginalia
