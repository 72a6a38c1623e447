import Marginalia.Proofs.Ranges

namespace Marginalia.Document

-- Notes of a document belong to it. No operation can make others.
def Homed (d : Document) : Prop := ∀ n ∈ d.notes, n.document = some d.handle

theorem homed_bare {d : Document} (bare : d.notes = []) : d.Homed := by simp [Homed, bare]

theorem append_homed {a : Document} (homed : a.Homed) (b : Document) : (a.append b).Homed := by
  intro n member
  rw [append_handle]
  rcases List.mem_append.mp member with old | new
  · exact homed n old
  · obtain ⟨m, _, rfl⟩ := List.mem_map.mp new
    rfl

theorem addNote_homed {d : Document} (homed : d.Homed) (n : Note) : (d.addNote n).Homed := by
  intro m member
  rcases List.mem_append.mp member with old | new
  · exact homed m old
  · cases List.mem_singleton.mp new
    rfl

theorem addNotes_homed {d : Document} (homed : d.Homed) (notes : List Note) : (d.addNotes notes).Homed := by
  induction notes generalizing d with
  | nil => exact homed
  | cons n rest ih => exact ih (addNote_homed homed n)

theorem extend_homed (splitter : Splitter) (text : String) {d : Document} (homed : d.Homed)
    (supply : Supply) : (splitter.extend text d supply).1.2.Homed := by
  cases cut : splitter.sentences text with
  | error fault =>
    rw [splitter.extend_refused cut]
    exact homed
  | ok sentences =>
    rw [splitter.extend_accepted cut]
    exact append_homed homed _

theorem setTag_notes (d : Document) (source : Source) (tag : String) (present : Bool) :
    (d.setTag source tag present).notes = d.notes
      ∧ (d.setTag source tag present).handle = d.handle := by
  unfold setTag
  split <;> exact ⟨rfl, rfl⟩

theorem Produced.homed {edits : (Token → Token) → Prop} {d : Document} (run : Produced edits d) : d.Homed := by
  induction run with
  | new handle => exact homed_bare rfl
  | addAtEnd _ _ made ih =>
    obtain rfl := addAtEnd?_made made
    exact ih
  | addInPlace _ _ ih => exact ih
  | append _ _ made ih _ =>
    obtain rfl := append?_made made
    exact append_homed ih _
  | copyWith _ handle transform _ => exact homed_bare rfl
  | extended _ splitter text supply _ made ih => exact splitter.extend?_made made ▸ extend_homed splitter text ih supply
  | replaced _ splitter text supply _ ih => exact extend_homed splitter text (d := cleared _) ih supply
  | edited _ _ _ ih | described _ _ ih => exact ih
  | noted _ n ih => exact addNote_homed ih n
  | allNoted _ notes ih => exact addNotes_homed ih notes
  | notesCleared _ _ _ ih => exact fun n member => ih n (List.mem_filter.mp member).1
  | noteRemoved _ _ ih => exact fun n member => ih n (List.mem_of_mem_eraseP member)
  | tagged _ source tag present ih =>
    obtain ⟨notes, handle⟩ := setTag_notes _ source tag present
    unfold Homed
    rw [notes, handle]
    exact ih
  | reloaded _ handle _ => exact addNotes_homed (homed_bare rfl) _

end Marginalia.Document
