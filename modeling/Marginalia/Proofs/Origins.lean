import Marginalia.Proofs.Layers
import Marginalia.Proofs.Ranking
import Marginalia.Proofs.Selections

namespace Marginalia

namespace Document

theorem Changed.homed {d e : Document} (changed : d.Changed e) (homed : d.Homed) : e.Homed := by
  cases changed with
  | addAtEnd s => exact homed
  | addInPlace s => exact homed
  | edited index edit => exact homed
  | noted n => exact addNote_homed homed n
  | allNoted notes => exact addNotes_homed homed notes
  | @forwarded s n e made =>
    obtain ⟨_, _, forwarded⟩ := bind_ok.mp made
    cases Except.ok.inj forwarded
    exact addNote_homed homed n
  | @allForwarded s notes e made =>
    obtain ⟨_, _, forwarded⟩ := bind_ok.mp made
    cases Except.ok.inj forwarded
    exact addNotes_homed homed notes
  | notesCleared source kind => exact fun n member => homed n (List.mem_filter.mp member).1
  | noteRemoved id => exact fun n member => homed n (List.mem_of_mem_eraseP member)
  | tagged source tag present =>
    obtain ⟨notes, handle⟩ := setTag_notes d source tag present
    unfold Homed
    rw [notes, handle]
    exact homed
  | described metadata => exact homed

-- How documents are made: the handles of all that are made on the way, the lasting one's first, that
-- one unless it is refused, and the supply that is left. A text takes a passing document as well.
inductive Makes (supply : Supply) : List Handle → Option Document → Supply → Prop where
  | fresh : Makes supply [(Document.fresh supply).1.handle] (some (Document.fresh supply).1) (Document.fresh supply).2
  | ofText (splitter : Splitter) (text : String) :
      Makes supply [(Document.fresh supply).1.handle, (Document.fresh (Document.fresh supply).2).1.handle]
        (splitter.document text supply).1.toOption (splitter.document text supply).2
  | copied (d : Document) (transform : String → String) :
      Makes supply [(d.copyWith (Supply.freshHandle supply).1 transform).handle]
        (some (d.copyWith (Supply.freshHandle supply).1 transform)) (Supply.freshHandle supply).2
  | rebuilt (r : Record Note) :
      Makes supply [(r.document (Supply.freshHandle supply).1).handle]
        (some (r.document (Supply.freshHandle supply).1)) (Supply.freshHandle supply).2
  | read (r : Record NoteBody) :
      Makes supply [(r.freshDocument supply).1.handle] (some (r.freshDocument supply).1) (r.freshDocument supply).2
  | query : Makes supply [(Document.fresh supply).1.handle] (some (Query.fresh supply).1.document) (Query.fresh supply).2
  | queryOfText (splitter : Splitter) (text : String) :
      Makes supply [(Document.fresh supply).1.handle, (Document.fresh (Document.fresh supply).2).1.handle]
        ((Query.ofText splitter text supply).1.toOption.map Query.document) (Query.ofText splitter text supply).2

-- Handles are numbered on from where the supply stands, and no name is taken for any other purpose.
structure Numbers (supply next : Supply) (handles : List Handle) : Prop where
  count : next.handle = supply.handle + handles.length
  inOrder : ∀ (i : Nat) (h : Handle), handles[i]? = some h → h.number = supply.handle + i

theorem one_numbers {supply next : Supply} {h : Handle} (number : h.number = supply.handle)
    (left : next.handle = supply.handle + 1) : Numbers supply next [h] := by
  refine ⟨left, ?_⟩
  intro i other listed
  cases i with
  | zero =>
    cases Option.some.inj listed
    exact number
  | succ i => cases listed

theorem two_number (supply : Supply) : Numbers supply (Document.fresh (Document.fresh supply).2).2
    [(Document.fresh supply).1.handle, (Document.fresh (Document.fresh supply).2).1.handle] := by
  refine ⟨rfl, ?_⟩
  intro i h listed
  match i with
  | 0 | 1 =>
    cases Option.some.inj listed
    rfl
  | i + 2 => cases listed

theorem extend_left (splitter : Splitter) (text : String) (d : Document) (supply : Supply) :
    (splitter.extend text d supply).2 = (Document.fresh supply).2 := by
  unfold Splitter.extend
  cases splitter.sentences text <;> rfl

theorem document_left (splitter : Splitter) (text : String) (supply : Supply) :
    (splitter.document text supply).2 = (Document.fresh (Document.fresh supply).2).2 :=
  extend_left splitter text (Document.fresh supply).1 (Document.fresh supply).2

theorem query_left (splitter : Splitter) (text : String) (supply : Supply) :
    (Query.ofText splitter text supply).2 = (Document.fresh (Document.fresh supply).2).2 :=
  extend_left splitter text (Document.fresh supply).1 (Document.fresh supply).2

-- A query is made of a text just as a document is.
theorem query_document (splitter : Splitter) (text : String) (supply : Supply) :
    (Query.ofText splitter text supply).1.toOption.map Query.document
      = (splitter.document text supply).1.toOption := by
  cases cut : splitter.sentences text with
  | error fault =>
    rw [splitter.document_refused cut, Query.ofText_refused splitter cut]
    rfl
  | ok sentences =>
    rw [splitter.document_accepted cut, Query.ofText_accepted splitter cut]
    rfl

theorem document_number (r : Record Note) (h : Handle) : (r.document h).handle.number = h.number :=
  congrArg Handle.number (addNotes_handle ⟨h, r.span, r.sentences, [], r.metadata, r.tags⟩ r.notes)

theorem Makes.numbers {supply next : Supply} {handles : List Handle} {made : Option Document}
    (makes : Makes supply handles made next) : Numbers supply next handles := by
  cases makes with
  | fresh => exact one_numbers rfl rfl
  | ofText splitter text =>
    rw [document_left]
    exact two_number supply
  | copied d transform => exact one_numbers rfl rfl
  | rebuilt r => exact one_numbers (document_number r _) rfl
  | read r =>
    have unused := (Record.fresh_notes r.notes supply).2
    exact one_numbers ((document_number _ _).trans unused) (congrArg (· + 1) unused)
  | query => exact one_numbers rfl rfl
  | queryOfText splitter text =>
    rw [query_left]
    exact two_number supply

theorem document_made {splitter : Splitter} {text : String} {supply : Supply} {d : Document}
    (made : some d = (splitter.document text supply).1.toOption) :
    some (Document.fresh supply).1.handle = some d.handle ∧ d.Homed := by
  cases cut : splitter.sentences text with
  | error fault =>
    rw [splitter.document_refused cut] at made
    cases made
  | ok sentences =>
    rw [splitter.document_accepted cut] at made
    cases Option.some.inj made
    exact ⟨congrArg some (append_handle _ _).symm, append_homed (homed_bare rfl) _⟩

theorem Makes.made {supply next : Supply} {handles : List Handle} {d : Document}
    (makes : Makes supply handles (some d) next) : handles[0]? = some d.handle ∧ d.Homed := by
  generalize same : some d = made at makes
  cases makes with
  | fresh =>
    cases Option.some.inj same
    exact ⟨rfl, homed_bare rfl⟩
  | ofText splitter text => exact document_made same
  | copied d transform =>
    cases Option.some.inj same
    exact ⟨rfl, homed_bare rfl⟩
  | rebuilt r | read r =>
    cases Option.some.inj same
    exact ⟨rfl, addNotes_homed (homed_bare rfl) _⟩
  | query =>
    cases Option.some.inj same
    exact ⟨rfl, homed_bare rfl⟩
  | queryOfText splitter text => exact document_made (same.trans (query_document splitter text supply))

end Document

namespace Selection

-- The document can be viewed by the selection and takes notes through it.
structure Fits (s : Selection) (d : Document) : Prop where
  view : s.view d = .ok ⟨d, s.indices, s.span⟩
  addNote : ∀ n, s.addNote d n = .ok (d.addNote n)
  addNotes : ∀ notes, s.addNotes d notes = .ok (d.addNotes notes)

-- The document is turned away, and what was to be written leaves it as it is.
structure Refuses (s : Selection) (d : Document) : Prop where
  view : s.view d = .error (.foreignDocument s.document d.handle)
  addNote : ∀ n, s.addNote d n = .error (.foreignDocument s.document d.handle)
  addNotes : ∀ notes, s.addNotes d notes = .error (.foreignDocument s.document d.handle)
  keepsOne : ∀ n, d.after (s.addNote d n) = d
  keepsAll : ∀ notes, d.after (s.addNotes d notes) = d

theorem fits_exact {s : Selection} {d : Document} : s.Fits d ↔ d.handle = s.document := by
  constructor
  · exact fun fits => (view_exact.mp fits.view).1
  · intro own
    refine ⟨view_exact.mpr ⟨own, rfl⟩, ?_, ?_⟩
    · intro n
      rw [addNote_exact, if_pos own]
    · intro notes
      rw [addNotes_exact, if_pos own]

theorem refuses_exact {s : Selection} {d : Document} : s.Refuses d ↔ d.handle ≠ s.document := by
  constructor
  · intro refuses own
    have viewed := (fits_exact.mpr own).view
    rw [refuses.view] at viewed
    cases viewed
  · intro foreign
    have one : ∀ n, s.addNote d n = .error (.foreignDocument s.document d.handle) := by
      intro n
      rw [addNote_exact, if_neg foreign]
    have all : ∀ notes, s.addNotes d notes = .error (.foreignDocument s.document d.handle) := by
      intro notes
      rw [addNotes_exact, if_neg foreign]
    refine ⟨?_, one, all, ?_, ?_⟩
    · rw [view, check, if_neg foreign]
      rfl
    · intro n
      rw [one]
      rfl
    · intro notes
      rw [all]
      rfl

end Selection

-- The documents of a run with the place at which each was made, counting all that were ever made, and
-- with the same places the hits of the queries and the selections. No operation reads a place.
structure Registry where
  supply : Supply
  made : List Handle
  documents : List (Nat × Document)
  queries : List (Nat × List Hit)
  selections : List (Nat × Selection)

namespace Registry

open Document Snippet

-- One operation. A refused text takes its handles all the same; a document that is appended to another
-- is used up.
inductive Step (w : Registry) : Registry → Prop where
  | made {handles : List Handle} {d : Document} {next : Supply} (makes : Makes w.supply handles (some d) next) :
      Step w { w with
        supply := next
        made := w.made ++ handles
        documents := (w.made.length, d) :: w.documents }
  | refused {handles : List Handle} {next : Supply} (makes : Makes w.supply handles none next) :
      Step w { w with supply := next, made := w.made ++ handles }
  | changed {i : Nat} {d e : Document} {others : List (Nat × Document)}
      (held : w.documents.Perm ((i, d) :: others)) (changed : d.Changed e) :
      Step w { w with documents := (i, e) :: others }
  | forwarded {i : Nat} {d : Document} {others : List (Nat × Document)}
      (held : w.documents.Perm ((i, d) :: others)) (s : Selection) (n : Note) :
      Step w { w with documents := (i, d.after (s.addNote d n)) :: others }
  | allForwarded {i : Nat} {d : Document} {others : List (Nat × Document)}
      (held : w.documents.Perm ((i, d) :: others)) (s : Selection) (notes : List Note) :
      Step w { w with documents := (i, d.after (s.addNotes d notes)) :: others }
  | extended {i : Nat} {d : Document} {others : List (Nat × Document)}
      (held : w.documents.Perm ((i, d) :: others)) (splitter : Splitter) (text : String) :
      Step w { w with
        supply := (splitter.extend text d w.supply).2
        made := w.made ++ [(Document.fresh w.supply).1.handle]
        documents := (i, (splitter.extend text d w.supply).1.2) :: others }
  | replaced {i : Nat} {d : Document} {others : List (Nat × Document)}
      (held : w.documents.Perm ((i, d) :: others)) (splitter : Splitter) (text : String) :
      Step w { w with
        supply := (splitter.replace text d w.supply).2
        made := w.made ++ [(Document.fresh w.supply).1.handle]
        documents := (i, (splitter.replace text d w.supply).1.2) :: others }
  | appended {i j : Nat} {d other : Document} {others : List (Nat × Document)}
      (held : w.documents.Perm ((i, d) :: (j, other) :: others)) :
      Step w { w with documents := (i, d.append other) :: others }
  | dropped {i : Nat} {d : Document} {others : List (Nat × Document)}
      (held : w.documents.Perm ((i, d) :: others)) : Step w { w with documents := others }
  | selected {i : Nat} {d : Document} {s : Snippet} (held : (i, d) ∈ w.documents)
      (taken : Taken (w.selections.map Prod.snd) d s) :
      Step w { w with selections := (i, s.selection) :: w.selections }
  | asked {i : Nat} {d : Document} (held : (i, d) ∈ w.documents) :
      Step w { w with queries := (i, []) :: w.queries }
  | answered {i j : Nat} {d e : Document} {hits : List Hit} {others : List (Nat × List Hit)}
      (held : (i, d) ∈ w.documents) (target : (j, e) ∈ w.documents)
      (listed : w.queries.Perm ((i, hits) :: others)) (n : Note) :
      Step w { w with queries := (i, ((Query.mk d hits).addHit e n).2.hits) :: others }
  | closed {i : Nat} {hits : List Hit} {others : List (Nat × List Hit)}
      (listed : w.queries.Perm ((i, hits) :: others)) : Step w { w with queries := others }

-- What operations reach from nothing.
inductive Run : Registry → Prop where
  | start : Run ⟨.initial, [], [], [], []⟩
  | step {w next : Registry} (run : Run w) (step : w.Step next) : Run next

-- Handles are numbered by the places of their documents, and each document is still the one that was
-- made at its place.
structure Sound (w : Registry) : Prop where
  count : w.supply.handle = w.made.length + 1
  numbered : ∀ (i : Nat) (h : Handle), w.made[i]? = some h → h.number = i + 1
  apart : (w.documents.map Prod.fst).Nodup
  born : ∀ entry ∈ w.documents, w.made[entry.1]? = some entry.2.handle
  homed : ∀ entry ∈ w.documents, entry.2.Homed
  hits : ∀ entry ∈ w.queries, ∀ h ∈ entry.2, h.note.document = some h.document.handle ∧ h.document.handle ∈ w.made
  taken : ∀ entry ∈ w.selections, w.made[entry.1]? = some entry.2.document

theorem made_earlier {made handles : List Handle} {i : Nat} {h : Handle} (listed : made[i]? = some h) :
    (made ++ handles)[i]? = some h := by
  obtain ⟨bound, _⟩ := List.getElem?_eq_some_iff.mp listed
  rw [List.getElem?_append_left bound, listed]

section

variable {w : Registry} (sound : Sound w)

include sound

theorem Sound.made_more {next : Supply} {handles : List Handle} (numbers : Numbers w.supply next handles) :
    Sound { w with supply := next, made := w.made ++ handles } := by
  obtain ⟨count, inOrder⟩ := numbers
  have before := sound.count
  refine ⟨?_, ?_, sound.apart, ?_, sound.homed, ?_, ?_⟩
  · simp only [List.length_append]
    omega
  · intro i h listed
    rcases Nat.lt_or_ge i w.made.length with old | new
    · exact sound.numbered i h (by rwa [List.getElem?_append_left old] at listed)
    · rw [List.getElem?_append_right new] at listed
      have number := inOrder _ _ listed
      omega
  · exact fun entry held => made_earlier (sound.born entry held)
  · intro entry kept h member
    obtain ⟨own, listed⟩ := sound.hits entry kept h member
    exact ⟨own, List.mem_append_left _ listed⟩
  · exact fun entry kept => made_earlier (sound.taken entry kept)

theorem Sound.listed {documents : List (Nat × Document)} (same : w.documents.Perm documents) :
    Sound { w with documents } :=
  { sound with
    apart := (same.map Prod.fst).nodup_iff.mp sound.apart
    born := fun entry held => sound.born entry (same.mem_iff.mpr held)
    homed := fun entry held => sound.homed entry (same.mem_iff.mpr held) }

theorem Sound.without {entry : Nat × Document} {others : List (Nat × Document)}
    (held : w.documents.Perm (entry :: others)) : Sound { w with documents := others } := by
  have listed := sound.listed held
  exact { sound with
    apart := (List.nodup_cons.mp listed.apart).2
    born := fun other member => listed.born other (List.mem_cons_of_mem _ member)
    homed := fun other member => listed.homed other (List.mem_cons_of_mem _ member) }

-- One document more, at a place where no other was made.
theorem Sound.with_document {i : Nat} {d : Document} (alone : i ∉ w.documents.map Prod.fst)
    (born : w.made[i]? = some d.handle) (homed : d.Homed) :
    Sound { w with documents := (i, d) :: w.documents } := by
  refine { sound with apart := List.nodup_cons.mpr ⟨alone, sound.apart⟩, born := ?_, homed := ?_ }
  · intro entry member
    rcases List.mem_cons.mp member with rfl | old
    · exact born
    · exact sound.born entry old
  · intro entry member
    rcases List.mem_cons.mp member with rfl | old
    · exact homed
    · exact sound.homed entry old

-- A document gives way to a later state of itself.
theorem Sound.updated {i : Nat} {d e : Document} {others : List (Nat × Document)}
    (held : w.documents.Perm ((i, d) :: others)) (same : e.handle = d.handle) (homed : d.Homed → e.Homed) :
    Sound { w with documents := (i, e) :: others } := by
  have listed := sound.listed held
  have born := listed.born (i, d) (by simp)
  refine (sound.without held).with_document (List.nodup_cons.mp listed.apart).1 ?_ ?_
  · rw [same]
    exact born
  · exact homed (listed.homed (i, d) (by simp))

theorem Sound.extended {i : Nat} {d e : Document} {others : List (Nat × Document)}
    (held : w.documents.Perm ((i, d) :: others)) (same : e.handle = d.handle) (homed : d.Homed → e.Homed)
    (splitter : Splitter) (text : String) :
    Sound { w with
      supply := (splitter.extend text e w.supply).2
      made := w.made ++ [(Document.fresh w.supply).1.handle]
      documents := (i, (splitter.extend text e w.supply).1.2) :: others } := by
  have numbers : Numbers w.supply (splitter.extend text e w.supply).2 [(Document.fresh w.supply).1.handle] := by
    rw [extend_left]
    exact one_numbers rfl rfl
  have kept := extend_kept splitter text e w.supply
  exact (sound.made_more numbers).updated held (kept.handle.trans same)
    fun before => extend_homed splitter text (homed before) w.supply

theorem Sound.asked {i : Nat} {hits : List Hit} {others : List (Nat × List Hit)}
    (held : ∀ entry ∈ others, entry ∈ w.queries)
    (homed : ∀ h ∈ hits, h.note.document = some h.document.handle ∧ h.document.handle ∈ w.made) :
    Sound { w with queries := (i, hits) :: others } := by
  refine { sound with hits := ?_ }
  intro entry member
  rcases List.mem_cons.mp member with rfl | old
  · exact homed
  · exact sound.hits entry (held entry old)

end

-- What a selection forwards is taken or refused.
theorem Sound.after {w : Registry} (sound : Sound w) {i : Nat} {d : Document} {others : List (Nat × Document)}
    (held : w.documents.Perm ((i, d) :: others)) {outcome : Except Fault Document}
    (made : ∀ e, outcome = .ok e → d.Changed e) : Sound { w with documents := (i, d.after outcome) :: others } := by
  cases outcome with
  | error fault => exact sound.listed held
  | ok e =>
    have changed := made e rfl
    exact sound.updated held changed.kept.handle changed.homed

theorem Step.sound {w next : Registry} (sound : Sound w) (step : w.Step next) : Sound next := by
  cases step with
  | @made handles d supply makes =>
    obtain ⟨first, homed⟩ := makes.made
    refine (sound.made_more makes.numbers).with_document ?_ ?_ homed
    · intro listed
      obtain ⟨entry, held, same⟩ := List.mem_map.mp listed
      have bound := (List.getElem?_eq_some_iff.mp (sound.born entry held)).1
      omega
    · rw [List.getElem?_append_right (Nat.le_refl _), Nat.sub_self]
      exact first
  | refused makes => exact sound.made_more makes.numbers
  | changed held changed => exact sound.updated held changed.kept.handle changed.homed
  | forwarded held s n => exact sound.after held fun _ => .forwarded
  | allForwarded held s notes => exact sound.after held fun _ => .allForwarded
  | extended held splitter text => exact sound.extended held rfl id splitter text
  | @replaced i d others held splitter text => exact sound.extended (e := d.cleared) held rfl id splitter text
  | @appended i j d other others held =>
    have alone := sound.without (held.trans (List.Perm.swap (j, other) (i, d) others))
    exact alone.updated (.refl _) (append_handle d other) fun homed => append_homed homed other
  | dropped held => exact sound.without held
  | @selected i d s held taken =>
    refine { sound with taken := ?_ }
    intro entry member
    rcases List.mem_cons.mp member with rfl | old
    · rw [Snippet.selection, taken.source]
      exact sound.born (i, d) held
    · exact sound.taken entry old
  | asked held => exact sound.asked (fun _ => id) (by simp)
  | @answered i j d e hits others held target listed n =>
    refine sound.asked (fun entry old => listed.mem_iff.mpr (List.mem_cons_of_mem _ old)) ?_
    intro h member
    rcases Query.mem_place member with rfl | old
    · exact ⟨rfl, List.mem_of_getElem? (sound.born (j, e) target)⟩
    · exact sound.hits (i, hits) (listed.mem_iff.mpr (by simp)) h old
  | @closed i hits others listed =>
    exact { sound with hits := fun entry old => sound.hits entry (listed.mem_iff.mpr (List.mem_cons_of_mem _ old)) }

theorem Run.sound {w : Registry} (run : Run w) : Sound w := by
  induction run with
  | start => exact ⟨rfl, by simp, by simp, by simp, by simp, by simp, by simp⟩
  | step _ step ih => exact step.sound ih

theorem Sound.one_place {w : Registry} (sound : Sound w) {i j : Nat} {h : Handle} (left : w.made[i]? = some h)
    (right : w.made[j]? = some h) : i = j := by
  have first := sound.numbered i h left
  have second := sound.numbered j h right
  omega

theorem Sound.distinct {w : Registry} (sound : Sound w) : w.made.Nodup := by
  rw [List.nodup_iff_getElem?_ne_getElem?]
  intro i j before bound same
  have present := List.getElem?_eq_getElem bound
  have one := sound.one_place (same.trans present) present
  omega

-- A selection fits a document exactly if both have the same origin.
theorem Sound.fits {w : Registry} (sound : Sound w) {i j : Nat} {s : Selection} {d : Document}
    (kept : (i, s) ∈ w.selections) (held : (j, d) ∈ w.documents) : d.handle = s.document ↔ j = i := by
  have taken := sound.taken (i, s) kept
  have born := sound.born (j, d) held
  constructor
  · intro own
    rw [own] at born
    exact sound.one_place born taken
  · rintro rfl
    exact Option.some.inj (born.symm.trans taken)

-- No handle is given twice, notes and hits belong to their documents, and a selection takes the one
-- document it comes from, told by where that was made and not by what it holds.
theorem run_identities {w : Registry} (run : Run w) :
    w.made.Nodup ∧ (w.documents.map Prod.fst).Nodup
      ∧ (∀ i d, (i, d) ∈ w.documents → w.made[i]? = some d.handle ∧ d.Homed)
      ∧ (∀ i hits, (i, hits) ∈ w.queries → ∀ h ∈ hits,
        h.note.document = some h.document.handle ∧ h.document.handle ∈ w.made)
      ∧ ∀ i s, (i, s) ∈ w.selections → ∀ j d, (j, d) ∈ w.documents →
        (s.Fits d ↔ j = i) ∧ (s.Refuses d ↔ j ≠ i) := by
  have sound := run.sound
  refine ⟨sound.distinct, sound.apart, ?_, ?_, ?_⟩
  · exact fun i d held => ⟨sound.born (i, d) held, sound.homed (i, d) held⟩
  · exact fun i hits kept => sound.hits (i, hits) kept
  · intro i s kept j d held
    have own := sound.fits kept held
    exact ⟨Selection.fits_exact.trans own, Selection.refuses_exact.trans (not_congr own)⟩

-- A noted line, and a document that was read from its record and equals it.
def mark : Note := (NoteBody.plain .mention .user (.clamped 0 2)).named ⟨1⟩

def noted : Document := ((Document.empty ⟨1⟩).addInPlace Desk.upperLine).addNote mark

def twin : Document := noted.record.document ⟨2⟩

def firstLine : Selection := ⟨⟨1⟩, [0], none⟩

-- A refused text takes two handles before the query, which has a hit in the twin, takes one.
def asking : Registry :=
  ⟨⟨6, 1⟩, [⟨1⟩, ⟨2⟩, ⟨3⟩, ⟨4⟩, ⟨5⟩], [(4, .empty ⟨5⟩), (1, twin), (0, noted)], [(4, [])], [(0, firstLine)]⟩

def twinned : Registry := { asking with queries := [(4, [⟨twin, mark.rehomed ⟨2⟩⟩])] }

theorem twinned_run : Run twinned := by
  have made : Run ⟨⟨2, 1⟩, [⟨1⟩], [(0, .empty ⟨1⟩)], [], []⟩ := .step .start (.made .fresh)
  have lined : Run ⟨⟨2, 1⟩, [⟨1⟩], [(0, (Document.empty ⟨1⟩).addInPlace Desk.upperLine)], [], []⟩ :=
    .step made (.changed (.refl _) (.addInPlace _))
  have marked : Run ⟨⟨2, 1⟩, [⟨1⟩], [(0, noted)], [], []⟩ := .step lined (.changed (.refl _) (.noted _))
  have taken : ofSentences noted [0] = .ok ⟨noted, [0], none⟩ := rfl
  have selected : Run ⟨⟨2, 1⟩, [⟨1⟩], [(0, noted)], [], [(0, firstLine)]⟩ :=
    .step marked (.selected (List.mem_singleton.mpr rfl) (.ofSentences taken))
  have twins : Run ⟨⟨3, 1⟩, [⟨1⟩, ⟨2⟩], [(1, twin), (0, noted)], [], [(0, firstLine)]⟩ :=
    .step selected (.made (.rebuilt noted.record))
  have refused : Run ⟨⟨5, 1⟩, [⟨1⟩, ⟨2⟩, ⟨3⟩, ⟨4⟩], [(1, twin), (0, noted)], [], [(0, firstLine)]⟩ :=
    .step twins (.refused (.ofText ⟨fun _ => .error .malformedRecord⟩ ""))
  have query : (4, .empty ⟨5⟩) ∈ asking.documents := by simp [asking]
  have target : (1, twin) ∈ asking.documents := by simp [asking]
  have asked : Run asking := .step (.step refused (.made .query)) (.asked query)
  exact .step asked (.answered query target (.refl [(4, [])]) mark)

-- The selection tells the line from its twin, and the note of the hit belongs to the twin.
theorem twinned_identities : Run twinned ∧ twinned.made.Nodup ∧ twin.same noted = true
    ∧ (0, noted) ∈ twinned.documents ∧ (1, twin) ∈ twinned.documents ∧ (0, firstLine) ∈ twinned.selections
    ∧ firstLine.Fits noted ∧ firstLine.Refuses twin
    ∧ twin.Homed ∧ ∀ h ∈ [Hit.mk twin (mark.rehomed ⟨2⟩)],
      h.note.document = some h.document.handle ∧ h.document.handle ∈ twinned.made := by
  have line : (0, noted) ∈ twinned.documents := by simp [twinned, asking]
  have other : (1, twin) ∈ twinned.documents := by simp [twinned, asking]
  have kept : (0, firstLine) ∈ twinned.selections := by simp [twinned, asking]
  have asked : (4, [Hit.mk twin (mark.rehomed ⟨2⟩)]) ∈ twinned.queries := by simp [twinned]
  obtain ⟨distinct, _, born, hits, fits⟩ := run_identities twinned_run
  have own := fits 0 firstLine kept
  exact ⟨twinned_run, distinct, by decide, line, other, kept, (own 0 noted line).1.mpr rfl,
    (own 1 twin other).2.mpr (by decide), (born 1 twin other).2, hits 4 _ asked⟩

end Registry

end Marginalia
