namespace Marginalia

-- A finite map kept as pairs in strictly ascending key order. The order makes the list
-- canonical: two maps with the same look-ups are the same value.
structure Keyed (κ α : Type) [Ord κ] where
  entries : List (κ × α)
  ascending : entries.Pairwise fun a b => compare a.1 b.1 = .lt

namespace Keyed

variable {κ α β : Type} [Ord κ]

def empty : Keyed κ α := ⟨[], .nil⟩

instance : Inhabited (Keyed κ α) := ⟨empty⟩

theorem same_entries {a b : Keyed κ α} (same : a.entries = b.entries) : a = b := by
  cases a; cases b; simp_all

instance [DecidableEq κ] [DecidableEq α] : DecidableEq (Keyed κ α) := fun a b =>
  if same : a.entries = b.entries then isTrue (same_entries same)
  else isFalse fun equal => same (by rw [equal])

def keys (m : Keyed κ α) : List κ := m.entries.map Prod.fst

def isEmpty (m : Keyed κ α) : Bool := m.entries.isEmpty

def lookup (key : κ) : List (κ × α) → Option α
  | [] => none
  | (k, v) :: rest => match compare key k with
    | .lt => none
    | .eq => some v
    | .gt => lookup key rest

def find? (m : Keyed κ α) (key : κ) : Option α := lookup key m.entries

def contains (m : Keyed κ α) (key : κ) : Bool := (m.find? key).isSome

-- The new value takes the place of an old one under the same key.
def place (key : κ) (value : α) : List (κ × α) → List (κ × α)
  | [] => [(key, value)]
  | (k, v) :: rest => match compare key k with
    | .lt => (key, value) :: (k, v) :: rest
    | .eq => (key, value) :: rest
    | .gt => (k, v) :: place key value rest

def remove (key : κ) : List (κ × α) → List (κ × α)
  | [] => []
  | (k, v) :: rest => match compare key k with
    | .lt => (k, v) :: rest
    | .eq => rest
    | .gt => (k, v) :: remove key rest

theorem mem_place {key : κ} {value : α} {entry : κ × α} {entries : List (κ × α)}
    (member : entry ∈ place key value entries) : entry = (key, value) ∨ entry ∈ entries := by
  induction entries with
  | nil => simpa [place] using member
  | cons head rest ih =>
    obtain ⟨k, v⟩ := head
    unfold place at member
    split at member
    · simpa using member
    · rcases List.mem_cons.mp member with new | old
      · exact .inl new
      · exact .inr (List.mem_cons_of_mem _ old)
    · rcases List.mem_cons.mp member with same | old
      · exact .inr (same ▸ List.mem_cons_self ..)
      · rcases ih old with new | kept
        · exact .inl new
        · exact .inr (List.mem_cons_of_mem _ kept)

theorem mem_remove {key : κ} {entry : κ × α} {entries : List (κ × α)}
    (member : entry ∈ remove key entries) : entry ∈ entries := by
  induction entries with
  | nil => simp [remove] at member
  | cons head rest ih =>
    obtain ⟨k, v⟩ := head
    unfold remove at member
    split at member
    · exact member
    · exact List.mem_cons_of_mem _ member
    · rcases List.mem_cons.mp member with same | old
      · exact same ▸ List.mem_cons_self ..
      · exact List.mem_cons_of_mem _ (ih old)

theorem remove_ascending (key : κ) {entries : List (κ × α)}
    (ascending : entries.Pairwise fun a b => compare a.1 b.1 = .lt) :
    (remove key entries).Pairwise fun a b => compare a.1 b.1 = .lt := by
  induction entries with
  | nil => simp [remove]
  | cons head rest ih =>
    obtain ⟨k, v⟩ := head
    obtain ⟨first, tail⟩ := List.pairwise_cons.mp ascending
    unfold remove
    split
    · exact ascending
    · exact tail
    · exact List.pairwise_cons.mpr ⟨fun entry member => first entry (mem_remove member), ih tail⟩

section Lawful

variable [Std.TransOrd κ] [Std.LawfulEqOrd κ]

theorem place_ascending (key : κ) (value : α) {entries : List (κ × α)}
    (ascending : entries.Pairwise fun a b => compare a.1 b.1 = .lt) :
    (place key value entries).Pairwise fun a b => compare a.1 b.1 = .lt := by
  induction entries with
  | nil => simp [place]
  | cons head rest ih =>
    obtain ⟨k, v⟩ := head
    obtain ⟨first, tail⟩ := List.pairwise_cons.mp ascending
    unfold place
    split
    · rename_i before
      refine List.pairwise_cons.mpr ⟨?_, ascending⟩
      intro entry member
      rcases List.mem_cons.mp member with rfl | later
      · exact before
      · exact Std.TransCmp.lt_trans before (first entry later)
    · rename_i same
      cases Std.LawfulEqCmp.eq_of_compare same
      exact List.pairwise_cons.mpr ⟨first, tail⟩
    · rename_i after
      refine List.pairwise_cons.mpr ⟨?_, ih tail⟩
      intro entry member
      rcases mem_place member with rfl | old
      · exact Std.OrientedCmp.lt_of_gt after
      · exact first entry old

def insert (m : Keyed κ α) (key : κ) (value : α) : Keyed κ α :=
  ⟨place key value m.entries, place_ascending key value m.ascending⟩

def erase (m : Keyed κ α) (key : κ) : Keyed κ α :=
  ⟨remove key m.entries, remove_ascending key m.ascending⟩

-- Of two entries under one key the later counts.
def ofList (entries : List (κ × α)) : Keyed κ α :=
  entries.foldl (fun m entry => m.insert entry.1 entry.2) empty

end Lawful

end Keyed

-- A finite set, as the map from its members to the unit value.
abbrev Members (κ : Type) [Ord κ] := Keyed κ Unit

namespace Members

variable {κ : Type} [Ord κ]

def toList (s : Members κ) : List κ := s.entries.map Prod.fst

def has (s : Members κ) (key : κ) : Bool := Keyed.contains s key

variable [Std.TransOrd κ] [Std.LawfulEqOrd κ]

def add (s : Members κ) (key : κ) : Members κ := Keyed.insert s key ()

def drop (s : Members κ) (key : κ) : Members κ := Keyed.erase s key

def ofList (keys : List κ) : Members κ := keys.foldl add Keyed.empty

def union (s t : Members κ) : Members κ := t.toList.foldl add s

end Members

end Marginalia
