import Marginalia.Proofs.Layers

namespace Marginalia

-- What reaches the notes of a document: an edit beside the tree, or a document that is appended. Tags and
-- metadata are set by edits of the first sort as well, which no note feels.
inductive NoteEdit where
  | beside (edit : OverlayEdit)
  | append (other : Document)

namespace NoteEdit

def apply : NoteEdit → Document → Document
  | .beside edit, d => edit.apply d
  | .append other, d => d.append other

-- The notes that come to the end.
def puts : NoteEdit → Document → List Note
  | .beside (.addNote n), d => [n.rehomed d.handle]
  | .beside (.addNotes notes), d => notes.map (·.rehomed d.handle)
  | .beside (.forwardNote s n), d => if d.handle = s.document then [n.rehomed d.handle] else []
  | .beside (.forwardNotes s notes), d => if d.handle = s.document then notes.map (·.rehomed d.handle) else []
  | .append other, d => other.notes.map fun n => (n.shifted d.joint).rehomed d.handle
  | _, _ => []

-- The one that is taken away by its name, the first that bears it.
def takes : NoteEdit → Document → List Note
  | .beside (.removeNote id), d => (d.notes.find? (·.id == id)).toList
  | _, _ => []

def clears : NoteEdit → Document → List Note
  | .beside (.clearNotes source kind), d => d.notes.filter fun n => n.kind == kind && n.source == source
  | _, _ => []

-- What is answered to the removal of a name.
def replies (id : NoteId) : NoteEdit → Document → List Bool
  | .beside (.removeNote other), d => if other = id then [(d.removeNote other).1] else []
  | _, _ => []

def applyAll (edits : List NoteEdit) (d : Document) : Document := edits.foldl (fun d edit => edit.apply d) d

-- What edits yield one after the other, each at the document that it meets.
def gather {α : Type} (part : NoteEdit → Document → List α) : List NoteEdit → Document → List α
  | [], _ => []
  | edit :: rest, d => part edit d ++ gather part rest (edit.apply d)

end NoteEdit

namespace Document

open NoteEdit

def bearing (id : NoteId) (notes : List Note) : Nat := notes.countP (·.id == id)

-- A removal finds the first note of the name, or there is none.
theorem removal_cases (d : Document) (id : NoteId) :
    (∃ before n after, d.notes = before ++ n :: after ∧ n.id = id ∧ (∀ m ∈ before, m.id ≠ id)
      ∧ d.notes.find? (·.id == id) = some n ∧ d.removeNote id = (true, { d with notes := before ++ after }))
    ∨ ((∀ n ∈ d.notes, n.id ≠ id) ∧ d.notes.find? (·.id == id) = none ∧ d.removeNote id = (false, d)) := by
  cases found : d.notes.find? (·.id == id) with
  | some n =>
    obtain ⟨named, before, after, parts, earlier⟩ := List.find?_eq_some_iff_append.mp found
    have passed : ∀ m ∈ before, ¬ (m.id == id) = true := by
      intro m member
      simpa using earlier m member
    refine .inl ⟨before, n, after, parts, eq_of_beq named, by simpa using passed, rfl, ?_⟩
    rw [removeNote, parts, List.eraseP_append_right _ passed]
    simp [named]
  | none =>
    have absent := List.find?_eq_none.mp found
    refine .inr ⟨by simpa using absent, rfl, ?_⟩
    have still : d.notes.any (·.id == id) = false := List.any_eq_false.mpr absent
    rw [removeNote, still, List.eraseP_of_forall_not absent]

-- The notes as a list to which everything is added at the end, and what may be taken from it. Where it is
-- not said otherwise nothing but the notes is touched.
structure ListsNotes (d : Document) : Prop where
  added : ∀ n, d.addNote n = { d with notes := d.notes ++ [n.rehomed d.handle] }
  allAdded : ∀ notes, d.addNotes notes = { d with notes := d.notes ++ notes.map (·.rehomed d.handle) }
  forwarded : ∀ (s : Selection) n, d.after (s.addNote d n) = if d.handle = s.document then d.addNote n else d
  allForwarded : ∀ (s : Selection) notes,
    d.after (s.addNotes d notes) = if d.handle = s.document then d.addNotes notes else d
  joined : ∀ other, (d.append other).notes
    = d.notes ++ other.notes.map fun n => (n.shifted d.joint).rehomed d.handle
  found : ∀ id, (d.removeNote id).1 = true ↔ ∃ n ∈ d.notes, n.id = id
  removed : ∀ before n after, d.notes = before ++ n :: after → (∀ m ∈ before, m.id ≠ n.id) →
    (d.removeNote n.id).2 = { d with notes := before ++ after }
  missed : ∀ id, (d.removeNote id).1 = false → (d.removeNote id).2 = d
  cleared : ∀ source kind,
    d.clearNotes source kind = { d with notes := d.notes.filter fun n => ¬ (n.source = source ∧ n.kind = kind) }
  clearedTwice : ∀ source kind, (d.clearNotes source kind).clearNotes source kind = d.clearNotes source kind
  clearedApart : ∀ source kind other sort,
    (d.clearNotes source kind).clearNotes other sort = (d.clearNotes other sort).clearNotes source kind

theorem listsNotes (d : Document) : d.ListsNotes where
  added _ := rfl
  allAdded := addNotes_exact d
  forwarded s n := by
    rw [Selection.addNote_exact]
    split <;> rfl
  allForwarded s notes := by
    rw [Selection.addNotes_exact]
    split <;> rfl
  joined := append_notes d
  found id := by simp [removeNote]
  removed before n after parts earlier := by
    have passed : ∀ m ∈ before, ¬ (m.id == n.id) = true := by simpa using earlier
    simp [removeNote, parts, List.eraseP_append_right _ passed]
  missed id absent := by
    obtain ⟨_, _, _, _, _, _, _, removed⟩ | ⟨_, _, kept⟩ := d.removal_cases id
    · rw [removed] at absent
      cases absent
    · rw [kept]
  cleared source kind := by
    have struck (n : Note) :
        (!(n.kind == kind && n.source == source)) = decide (¬ (n.source = source ∧ n.kind = kind)) := by
      rw [Bool.eq_iff_iff]
      simp [and_comm]
    simp only [clearNotes, struck]
  clearedTwice source kind := by simp [clearNotes, List.filter_filter]
  clearedApart source kind other sort := by
    simp only [clearNotes]
    rw [List.filter_comm]

end Document

namespace NoteEdit

open Document

-- What one edit does: some of the notes stay, in their order and in front of what comes, and the rest is
-- what is taken or cleared.
theorem apply_parts (edit : NoteEdit) (d : Document) :
    ∃ left, (edit.apply d).notes = left ++ edit.puts d ∧ left.Sublist d.notes
      ∧ (left ++ (edit.takes d ++ edit.clears d)).Perm d.notes := by
  have notes := d.listsNotes
  have whole : (d.notes ++ ([] ++ [])).Perm d.notes := by rw [List.append_nil, List.append_nil]
  have untouched (later : Document) (same : later.notes = d.notes) :
      ∃ left, later.notes = left ++ [] ∧ left.Sublist d.notes ∧ (left ++ ([] ++ [])).Perm d.notes :=
    ⟨d.notes, by rw [same, List.append_nil], .refl _, whole⟩
  cases edit with
  | append other => exact ⟨d.notes, append_notes d other, .refl _, whole⟩
  | beside edit =>
    cases edit with
    | addNote n => exact ⟨d.notes, rfl, .refl _, whole⟩
    | addNotes added => exact ⟨d.notes, congrArg Document.notes (notes.allAdded added), .refl _, whole⟩
    | forwardNote s n =>
      refine ⟨d.notes, ?_, .refl _, whole⟩
      rw [apply, OverlayEdit.apply, notes.forwarded, puts]
      split
      · rfl
      · rw [List.append_nil]
    | forwardNotes s added =>
      refine ⟨d.notes, ?_, .refl _, whole⟩
      rw [apply, OverlayEdit.apply, notes.allForwarded, puts]
      split
      · rw [notes.allAdded]
      · rw [List.append_nil]
    | removeNote id =>
      obtain ⟨before, n, after, parts, _, _, found, removed⟩ | ⟨_, absent, kept⟩ := d.removal_cases id
      · refine ⟨before ++ after, ?_, ?_, ?_⟩
        · rw [apply, OverlayEdit.apply, removed]
          exact (List.append_nil _).symm
        · rw [parts]
          exact (List.sublist_cons_self n after).append_left before
        · rw [takes, found, parts]
          have lone : (before ++ after ++ [n]).Perm (n :: (before ++ after)) := List.perm_append_comm
          exact lone.trans List.perm_middle.symm
      · rw [takes, absent]
        exact untouched _ (by rw [apply, OverlayEdit.apply, kept])
    | clearNotes source kind =>
      refine ⟨_, (List.append_nil _).symm, List.filter_sublist, ?_⟩
      exact List.perm_append_comm.trans (List.filter_append_perm _ d.notes)
    | setTag source tag present => exact untouched _ (setTag_notes d source tag present).1
    | describe change => exact untouched _ rfl

theorem applyAll_sublist (edits : List NoteEdit) (d : Document) :
    (applyAll edits d).notes.Sublist (d.notes ++ gather puts edits d) := by
  induction edits generalizing d with
  | nil => exact List.sublist_append_left _ _
  | cons edit rest ih =>
    obtain ⟨left, stays, order, _⟩ := edit.apply_parts d
    have later := ih (edit.apply d)
    rw [stays, List.append_assoc] at later
    exact later.trans (order.append_right _)

-- Nothing is lost and nothing doubled.
theorem applyAll_perm (edits : List NoteEdit) (d : Document) :
    ((applyAll edits d).notes ++ (gather takes edits d ++ gather clears edits d)).Perm
      (d.notes ++ gather puts edits d) := by
  induction edits generalizing d with
  | nil => exact .refl _
  | cons edit rest ih =>
    obtain ⟨left, stays, _, gone⟩ := edit.apply_parts d
    refine List.perm_iff_count.mpr fun n => ?_
    have here := List.perm_iff_count.mp gone n
    have later := List.perm_iff_count.mp (ih (edit.apply d)) n
    rw [stays] at later
    simp only [applyAll, gather, List.foldl_cons, List.count_append] at *
    omega

-- A removal succeeds as often as it takes a note of the name.
theorem replies_takes (id : NoteId) (edits : List NoteEdit) (d : Document) :
    (gather (replies id) edits d).count true = bearing id (gather takes edits d) := by
  induction edits generalizing d with
  | nil => rfl
  | cons edit rest ih =>
    have here : (edit.replies id d).count true = bearing id (edit.takes d) := by
      cases edit with
      | append other => rfl
      | beside edit =>
        cases edit with
        | removeNote other =>
          rw [replies, takes]
          obtain ⟨_, n, _, _, named, _, found, removed⟩ | ⟨_, absent, kept⟩ := d.removal_cases other
          · rw [found, removed]
            by_cases same : other = id <;> simp [bearing, named, same]
          · rw [absent, kept]
            by_cases same : other = id <;> simp [bearing, same]
        | _ => rfl
    rw [gather, gather, List.count_append, here, ih, bearing, bearing, bearing, List.countP_append]

theorem replies_removal (id : NoteId) (rest : List NoteEdit) (d : Document) :
    gather (replies id) (.beside (.removeNote id) :: rest) d
      = (d.removeNote id).1 :: gather (replies id) rest (d.removeNote id).2 := by
  rw [gather, replies, if_pos rfl]
  rfl

theorem removals_spent {id : NoteId} {d : Document} (spent : bearing id d.notes = 0) (more : Nat) :
    gather (replies id) (List.replicate more (.beside (.removeNote id))) d = List.replicate more false := by
  induction more with
  | zero => rfl
  | succ more ih =>
    rw [List.replicate_succ, replies_removal]
    obtain ⟨_, n, _, parts, named, _⟩ | ⟨_, _, kept⟩ := d.removal_cases id
    · simp [bearing, parts, named, List.countP_append] at spent
    · rw [kept, ih, List.replicate_succ]

-- Each removal takes one note of the name, so there are as many as there are notes.
theorem removals_answered {id : NoteId} {count : Nat} {d : Document} (held : bearing id d.notes = count) (more : Nat) :
    gather (replies id) (List.replicate (count + more) (.beside (.removeNote id))) d
      = List.replicate count true ++ List.replicate more false := by
  induction count generalizing d with
  | zero =>
    rw [Nat.zero_add]
    exact removals_spent held more
  | succ count ih =>
    rw [Nat.add_right_comm, List.replicate_succ, replies_removal]
    obtain ⟨before, n, after, parts, named, _, _, removed⟩ | ⟨absent, _⟩ := d.removal_cases id
    · have fewer : bearing id (before ++ after) = count := by
        rw [bearing, parts, List.countP_append, List.countP_cons_of_pos (by simp [named])] at held
        rw [bearing, List.countP_append]
        omega
      rw [removed, ih fewer]
      rfl
    · have none_held : bearing id d.notes = 0 := List.countP_eq_zero.mpr (by simpa using absent)
      omega

end NoteEdit

namespace Document

open NoteEdit

-- Whatever the edits, the notes are those that were put in, in the order in which they were, less those that
-- were removed or cleared; and at each step they are kept as a list is. A name that was put in a number of
-- times, and of which nothing is gone, can be removed this number of times and no more.
theorem notes_listed (d : Document) (edits : List NoteEdit) :
    (applyAll edits d).ListsNotes
      ∧ (applyAll edits d).notes.Sublist (d.notes ++ gather puts edits d)
      ∧ ((applyAll edits d).notes ++ (gather takes edits d ++ gather clears edits d)).Perm
        (d.notes ++ gather puts edits d)
      ∧ (∀ id, bearing id (applyAll edits d).notes + (gather (replies id) edits d).count true
          + bearing id (gather clears edits d) = bearing id (d.notes ++ gather puts edits d))
      ∧ ∀ id, true ∉ gather (replies id) edits d → bearing id (gather clears edits d) = 0 → ∀ more,
        gather (replies id)
            (List.replicate (bearing id (d.notes ++ gather puts edits d) + more) (.beside (.removeNote id)))
            (applyAll edits d)
          = List.replicate (bearing id (d.notes ++ gather puts edits d)) true ++ List.replicate more false := by
  have counted (id : NoteId) : bearing id (applyAll edits d).notes + (gather (replies id) edits d).count true
      + bearing id (gather clears edits d) = bearing id (d.notes ++ gather puts edits d) := by
    have whole := (applyAll_perm edits d).countP_eq (·.id == id)
    rw [replies_takes]
    simp only [bearing, List.countP_append] at *
    omega
  refine ⟨listsNotes _, applyAll_sublist edits d, applyAll_perm edits d, counted, ?_⟩
  intro id kept uncleared more
  have held := counted id
  rw [List.count_eq_zero_of_not_mem kept, uncleared] at held
  exact removals_answered held more

-- One note comes four times, the last time with a document that brings it. A selection of another document is
-- refused, and what is cleared and what is removed bear other names.
def remark : Note := (NoteBody.plain .mention .gold (.clamped 0 2)).named ⟨7⟩

def passing : Note := (NoteBody.plain .passage .pred (.clamped 0 5)).named ⟨8⟩

def remarked : List NoteEdit :=
  [.beside (.addNote remark), .beside (.addNotes [passing, remark]), .beside (.forwardNote ⟨⟨1⟩, [], none⟩ remark),
    .beside (.forwardNote ⟨⟨3⟩, [], none⟩ remark), .append ((empty ⟨2⟩).addNote remark),
    .beside (.clearNotes .pred .passage), .beside (.removeNote ⟨8⟩)]

theorem remarked_listed : (applyAll remarked (empty ⟨1⟩)).notes = List.replicate 4 (remark.rehomed ⟨1⟩)
    ∧ (gather puts remarked (empty ⟨1⟩)).length = 5
    ∧ true ∉ gather (replies ⟨7⟩) remarked (empty ⟨1⟩) ∧ bearing ⟨7⟩ (gather clears remarked (empty ⟨1⟩)) = 0
    ∧ gather (replies ⟨7⟩) (List.replicate 5 (.beside (.removeNote ⟨7⟩))) (applyAll remarked (empty ⟨1⟩))
      = [true, true, true, true, false] := by
  have kept : true ∉ gather (replies ⟨7⟩) remarked (empty ⟨1⟩) := by decide
  have uncleared : bearing ⟨7⟩ (gather clears remarked (empty ⟨1⟩)) = 0 := by decide
  obtain ⟨_, _, _, _, removals⟩ := notes_listed (empty ⟨1⟩) remarked
  exact ⟨by decide, by decide, kept, uncleared, removals ⟨7⟩ kept uncleared 1⟩

end Document

end Marginalia
