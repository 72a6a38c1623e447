import Marginalia.Keyed
import Mathlib.Data.List.Nodup

namespace Marginalia

namespace Keyed

variable {κ α : Type} [Ord κ]

-- Nothing is found in front of the first key.
theorem lookup_ahead {key : κ} {entries : List (κ × α)} (ahead : ∀ entry ∈ entries, compare key entry.1 = .lt) :
    lookup key entries = none := by
  cases entries with
  | nil => rfl
  | cons head rest => simp only [lookup, ahead head List.mem_cons_self]

variable [Std.TransOrd κ]

theorem lookup_place_same (key : κ) (value : α) (entries : List (κ × α)) :
    lookup key (place key value entries) = some value := by
  induction entries with
  | nil => simp [place, lookup]
  | cons head rest ih =>
    unfold place
    split
    · simp [lookup]
    · simp [lookup]
    · rename_i behind
      simp only [lookup, behind, ih]

-- Another key is searched for as before. Where its search ended early, it still does.
theorem lookup_place_other {key other : κ} (apart : compare other key ≠ .eq) (value : α) (entries : List (κ × α)) :
    lookup other (place key value entries) = lookup other entries := by
  induction entries with
  | nil =>
    unfold place lookup
    split
    · rfl
    · rename_i same
      exact absurd same apart
    · rfl
  | cons head rest ih =>
    obtain ⟨k, v⟩ := head
    unfold place
    split
    · rename_i before
      rw [lookup]
      split
      · rename_i ahead
        simp only [lookup, Std.TransCmp.lt_trans ahead before]
      · rename_i same
        exact absurd same apart
      · rfl
    · rename_i same
      have alike : compare other key = compare other k := Std.TransCmp.congr_right same
      simp only [lookup, ← alike]
      split
      · rfl
      · rename_i found
        exact absurd found apart
      · rfl
    · simp only [lookup, ih]

-- Behind the key that is taken out all keys are later, so nothing can be found under it again.
theorem lookup_remove_same {key : κ} {entries : List (κ × α)}
    (ascending : entries.Pairwise fun a b => compare a.1 b.1 = .lt) : lookup key (remove key entries) = none := by
  induction entries with
  | nil => rfl
  | cons head rest ih =>
    obtain ⟨first, tail⟩ := List.pairwise_cons.mp ascending
    unfold remove
    split
    · rename_i before
      simp only [lookup, before]
    · rename_i same
      apply lookup_ahead
      intro entry later
      rw [Std.TransCmp.congr_left same]
      exact first entry later
    · rename_i behind
      simp only [lookup, behind, ih tail]

theorem lookup_remove_other {key other : κ} (apart : compare other key ≠ .eq) {entries : List (κ × α)}
    (ascending : entries.Pairwise fun a b => compare a.1 b.1 = .lt) :
    lookup other (remove key entries) = lookup other entries := by
  induction entries with
  | nil => rfl
  | cons head rest ih =>
    obtain ⟨first, tail⟩ := List.pairwise_cons.mp ascending
    unfold remove
    split
    · rfl
    · rename_i same
      have alike : compare other key = compare other head.1 := Std.TransCmp.congr_right same
      rw [lookup, ← alike]
      split
      · rename_i before
        rw [alike] at before
        exact lookup_ahead fun entry later => Std.TransCmp.lt_trans before (first entry later)
      · rename_i found
        exact absurd found apart
      · rfl
    · simp only [lookup, ih tail]

theorem find?_erase_same (m : Keyed κ α) (key : κ) : (m.erase key).find? key = none :=
  lookup_remove_same m.ascending

variable [Std.LawfulEqOrd κ]

theorem lookup_exact {key : κ} {value : α} {entries : List (κ × α)}
    (ascending : entries.Pairwise fun a b => compare a.1 b.1 = .lt) :
    lookup key entries = some value ↔ (key, value) ∈ entries := by
  induction entries with
  | nil => simp [lookup]
  | cons head rest ih =>
    obtain ⟨first, tail⟩ := List.pairwise_cons.mp ascending
    have elsewhere : ∀ v, (key, v) ∈ rest → compare key head.1 = .gt :=
      fun v member => Std.OrientedCmp.gt_of_lt (first (key, v) member)
    rw [lookup, List.mem_cons]
    split
    · rename_i before
      have other : key ≠ head.1 := fun same => by simp [same] at before
      constructor
      · exact nofun
      · rintro (rfl | later)
        · exact absurd rfl other
        · rw [elsewhere value later] at before
          cases before
    · rename_i same
      obtain rfl := Std.LawfulEqCmp.eq_of_compare same
      constructor
      · rintro ⟨rfl⟩
        exact .inl rfl
      · rintro (here | later)
        · rw [← here]
        · have := elsewhere value later
          simp at this
    · rename_i behind
      have other : key ≠ head.1 := fun same => by simp [same] at behind
      rw [ih tail]
      constructor
      · exact .inr
      · rintro (rfl | later)
        · exact absurd rfl other
        · exact later

theorem find?_exact {m : Keyed κ α} {key : κ} {value : α} : m.find? key = some value ↔ (key, value) ∈ m.entries :=
  lookup_exact m.ascending

theorem find?_insert_same (m : Keyed κ α) (key : κ) (value : α) : (m.insert key value).find? key = some value :=
  lookup_place_same key value m.entries

theorem find?_insert_other (m : Keyed κ α) {key other : κ} (apart : other ≠ key) (value : α) :
    (m.insert key value).find? other = m.find? other :=
  lookup_place_other (mt Std.LawfulEqCmp.eq_of_compare apart) value m.entries

theorem find?_erase_other (m : Keyed κ α) {key other : κ} (apart : other ≠ key) :
    (m.erase key).find? other = m.find? other :=
  lookup_remove_other (mt Std.LawfulEqCmp.eq_of_compare apart) m.ascending

-- Ascending entries are determined by what is found in them.
theorem same_lookups {a b : Keyed κ α} (same : ∀ key, a.find? key = b.find? key) : a = b := by
  have distinct : ∀ m : Keyed κ α, m.entries.Nodup := fun m =>
    m.ascending.imp fun before equal => by simp [equal] at before
  have held : a.entries.Perm b.entries := by
    refine (List.perm_ext_iff_of_nodup (distinct a) (distinct b)).mpr ?_
    rintro ⟨key, value⟩
    rw [← find?_exact, same key, find?_exact]
  apply same_entries
  refine List.Perm.eq_of_pairwise ?_ a.ascending b.ascending held
  intro x y _ _ before behind
  rw [Std.OrientedCmp.gt_of_lt before] at behind
  cases behind

end Keyed

namespace Members

variable {κ : Type} [Ord κ]

@[simp] theorem has_empty (key : κ) : has (.empty : Members κ) key = false := rfl

variable [Std.TransOrd κ] [Std.LawfulEqOrd κ]

theorem has_exact {s : Members κ} {key : κ} : s.has key = true ↔ key ∈ s.toList := by
  unfold has toList Keyed.contains
  rw [Option.isSome_iff_exists, List.mem_map]
  constructor
  · rintro ⟨⟨⟩, found⟩
    exact ⟨(key, ()), Keyed.find?_exact.mp found, rfl⟩
  · rintro ⟨⟨k, ⟨⟩⟩, member, rfl⟩
    exact ⟨(), Keyed.find?_exact.mpr member⟩

theorem has_add (s : Members κ) (key other : κ) :
    (s.add key).has other = true ↔ other = key ∨ s.has other = true := by
  unfold has add Keyed.contains
  by_cases same : other = key
  · simp [same, Keyed.find?_insert_same]
  · simp [same, Keyed.find?_insert_other]

theorem has_drop (s : Members κ) (key other : κ) :
    (s.drop key).has other = true ↔ other ≠ key ∧ s.has other = true := by
  unfold has drop Keyed.contains
  by_cases same : other = key
  · simp [same, Keyed.find?_erase_same]
  · simp [same, Keyed.find?_erase_other]

theorem has_foldl_add (s : Members κ) (keys : List κ) (other : κ) :
    (keys.foldl add s).has other = true ↔ s.has other = true ∨ other ∈ keys := by
  induction keys generalizing s with
  | nil => simp
  | cons key rest ih =>
    rw [List.foldl_cons, ih, has_add, List.mem_cons]
    tauto

theorem has_union (s t : Members κ) (key : κ) :
    (s.union t).has key = true ↔ s.has key = true ∨ t.has key = true := by
  rw [union, has_foldl_add, has_exact (s := t)]

theorem same_members {s t : Members κ} (same : ∀ key, s.has key = true ↔ t.has key = true) : s = t := by
  apply Keyed.same_lookups
  intro key
  have alike := same key
  unfold has Keyed.contains at alike
  cases left : Keyed.find? s key <;> cases right : Keyed.find? t key <;> simp_all

theorem union_regroups (s t u : Members κ) : (s.union t).union u = s.union (t.union u) := by
  apply same_members
  intro key
  simp only [has_union, or_assoc]

end Members

end Marginalia
