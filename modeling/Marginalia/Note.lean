import Marginalia.Binary
import Marginalia.Identity
import Marginalia.Span

namespace Marginalia

-- Where a note comes from: ground truth, a model, automatic labels or a person.
inductive Source where
  | gold
  | pred
  | silver
  | user
deriving DecidableEq

namespace Source

def all : List Source := [.gold, .pred, .silver, .user]

def rank : Source → Nat
  | .gold => 0
  | .pred => 1
  | .silver => 2
  | .user => 3

instance : Ord Source := ⟨fun a b => compare a.rank b.rank⟩

instance : Std.OrientedOrd Source where
  eq_swap {a b} := by cases a <;> cases b <;> rfl

instance : Std.TransOrd Source where
  isLE_trans {a b c} := by cases a <;> cases b <;> cases c <;> decide

instance : Std.LawfulEqOrd Source where
  compare_self {a} := by cases a <;> rfl
  eq_of_compare {a b} := by cases a <;> cases b <;> decide

def name : Source → String
  | .gold => "GOLD"
  | .pred => "PRED"
  | .silver => "SILVER"
  | .user => "USER"

def ofName? (name : String) : Option Source := all.find? fun s => s.name == name

end Source

-- The kinds form a small tree under `generic`.
inductive Kind where
  | generic
  | passage
  | topicSection
  | mention
  | namedEntity
  | relevance
deriving DecidableEq

namespace Kind

def all : List Kind := [.generic, .passage, .topicSection, .mention, .namedEntity, .relevance]

def rank : Kind → Nat
  | .generic => 0
  | .passage => 1
  | .topicSection => 2
  | .mention => 3
  | .namedEntity => 4
  | .relevance => 5

def name : Kind → String
  | .generic => "Generic"
  | .passage => "Passage"
  | .topicSection => "Section"
  | .mention => "Mention"
  | .namedEntity => "NamedEntity"
  | .relevance => "Relevance"

def ofName? (name : String) : Option Kind := all.find? fun k => k.name == name

def parent : Kind → Option Kind
  | .generic => none
  | .passage | .mention | .relevance => some .generic
  | .topicSection => some .passage
  | .namedEntity => some .mention

-- A kind and the kinds above it, nearest first. No kind lies more than two below the root.
def lineage (kind : Kind) : List Kind :=
  climb 3 (some kind)
where
  climb : Nat → Option Kind → List Kind
    | steps + 1, some kind => kind :: climb steps kind.parent
    | _, _ => []

def isA (kind ancestor : Kind) : Bool := kind.lineage.contains ancestor

end Kind

-- What a note says: a range, with where it comes from and how sure it is.
structure NoteBody where
  span : Span
  kind : Kind
  source : Source
  confidence : Binary .double
  label : Option String
deriving DecidableEq

-- A note in circulation: its name, and the document it was last added to. It holds no text
-- and no document.
structure Note extends NoteBody where
  id : NoteId
  document : Option Handle
deriving DecidableEq

namespace NoteBody

-- Fully sure, without a label.
def plain (kind : Kind) (source : Source) (span : Span) : NoteBody :=
  ⟨span, kind, source, .one .double, none⟩

-- The same range and kind, whatever else differs.
def agrees (a b : NoteBody) : Bool := a.span == b.span && a.kind == b.kind

-- Confidences are compared as numbers.
def same (a b : NoteBody) : Bool :=
  a.span == b.span && a.kind == b.kind && a.source == b.source && a.confidence.same b.confidence
    && a.label == b.label

def named (n : NoteBody) (id : NoteId) : Note := ⟨n, id, none⟩

def fresh (n : NoteBody) : Naming Note := do return n.named (← Supply.freshNote)

end NoteBody

namespace Note

-- Any confidence is kept as it is given.
def withConfidence (n : Note) (confidence : Binary .double) : Note := { n with confidence }

def withLabel (n : Note) (label : String) : Note := { n with label := some label }

def rehomed (n : Note) (document : Handle) : Note := { n with document := some document }

def shifted (n : Note) (delta : Nat) : Note := { n with span := n.span.shifted delta }

def start (n : Note) : Nat := n.span.start

def stop (n : Note) : Nat := n.span.stop

-- Names and documents are not compared.
def agrees (a b : Note) : Bool := a.toNoteBody.agrees b.toNoteBody

def same (a b : Note) : Bool := a.toNoteBody.same b.toNoteBody

end Note

end Marginalia
