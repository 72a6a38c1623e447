import Marginalia.Proofs.Origins
import Marginalia.Proofs.Regrouping

namespace Marginalia

-- The names of notes that were moved, and of notes that were given another label.
structure Altered where
  moved : List NoteId
  relabelled : List NoteId

namespace Altered

def none : Altered := ⟨[], []⟩

instance : Append Altered := ⟨fun a b => ⟨a.moved ++ b.moved, a.relabelled ++ b.relabelled⟩⟩

structure Within (a b : Altered) : Prop where
  moved : a.moved ⊆ b.moved
  relabelled : a.relabelled ⊆ b.relabelled

theorem within_left (a b : Altered) : a.Within (a ++ b) :=
  ⟨List.subset_append_left _ _, List.subset_append_left _ _⟩

theorem within_right (a b : Altered) : b.Within (a ++ b) :=
  ⟨List.subset_append_right _ _, List.subset_append_right _ _⟩

end Altered

namespace Note

-- The notes are copies of one note. They are of the same kind and source, and of the same range and label
-- too unless their name is among those for which that changed.
structure Stems (altered : Altered) (n m : Note) : Prop where
  id : n.id = m.id
  kind : n.kind = m.kind
  source : n.source = m.source
  span : n.id ∉ altered.moved → n.span = m.span
  label : n.id ∉ altered.relabelled → n.label = m.label

section Stems

variable {altered : Altered} {a b c : Note}

theorem Stems.refl (altered : Altered) (n : Note) : n.Stems altered n :=
  ⟨rfl, rfl, rfl, fun _ => rfl, fun _ => rfl⟩

theorem Stems.symm (stems : a.Stems altered b) : b.Stems altered a :=
  ⟨stems.id.symm, stems.kind.symm, stems.source.symm, fun still => (stems.span (stems.id ▸ still)).symm,
    fun plain => (stems.label (stems.id ▸ plain)).symm⟩

theorem Stems.trans (first : a.Stems altered b) (second : b.Stems altered c) : a.Stems altered c :=
  ⟨first.id.trans second.id, first.kind.trans second.kind, first.source.trans second.source,
    fun still => (first.span still).trans (second.span (first.id ▸ still)),
    fun plain => (first.label plain).trans (second.label (first.id ▸ plain))⟩

theorem Stems.wider {more : Altered} (stems : a.Stems altered b) (wider : altered.Within more) : a.Stems more b :=
  { stems with
    span := fun still => stems.span fun listed => still (wider.moved listed)
    label := fun plain => stems.label fun listed => plain (wider.relabelled listed) }

theorem rehomed_stems (altered : Altered) (n : Note) (home : Handle) : (n.rehomed home).Stems altered n :=
  ⟨rfl, rfl, rfl, fun _ => rfl, fun _ => rfl⟩

theorem withConfidence_stems (altered : Altered) (n : Note) (confidence : Binary .double) :
    (n.withConfidence confidence).Stems altered n :=
  ⟨rfl, rfl, rfl, fun _ => rfl, fun _ => rfl⟩

theorem withLabel_stems {n : Note} (listed : n.id ∈ altered.relabelled) (label : String) :
    (n.withLabel label).Stems altered n :=
  ⟨rfl, rfl, rfl, fun _ => rfl, fun plain => absurd listed plain⟩

theorem shifted_stems {n : Note} {delta : Nat} (listed : delta ≠ 0 → n.id ∈ altered.moved) :
    (n.shifted delta).Stems altered n := by
  refine ⟨rfl, rfl, rfl, fun still => ?_, fun _ => rfl⟩
  have unmoved : delta = 0 := Classical.byContradiction fun moves => still (listed moves)
  rw [unmoved]
  exact Span.shifted_zero n.span

end Stems

end Note

-- Names are given to notes in their order and none twice.
structure Named (supply next : Supply) (notes : List Note) : Prop where
  grown : supply.note ≤ next.note
  named : ∀ n ∈ notes, supply.note ≤ n.id.number ∧ n.id.number < next.note
  apart : ∀ m ∈ notes, ∀ n ∈ notes, m.id = n.id → m = n

-- The hit is one in the document for a copy of the note, with its score.
structure Hit.Repeats (altered : Altered) (h : Hit) (d : Document) (n : Note) : Prop where
  document : h.document.handle = d.handle
  relevance : h.relevance = n.confidence
  note : h.note.Stems altered n

theorem NoteBody.fresh_named (body : NoteBody) (supply : Supply) :
    Named supply (body.fresh supply).2 [(body.fresh supply).1] := by
  refine ⟨Nat.le_succ _, ?_, ?_⟩
  · intro n member
    cases List.mem_singleton.mp member
    exact ⟨Nat.le_refl _, Nat.lt_succ_self _⟩
  · intro m left n right _
    rw [List.mem_singleton.mp left, List.mem_singleton.mp right]

namespace Record

theorem fresh_numbers (bodies : List NoteBody) (supply : Supply) :
    (bodies.mapM NoteBody.fresh supply).1.map (·.id.number) = List.range' supply.note bodies.length
      ∧ (bodies.mapM NoteBody.fresh supply).2.note = supply.note + bodies.length := by
  induction bodies generalizing supply with
  | nil => exact ⟨rfl, rfl⟩
  | cons body rest ih =>
    obtain ⟨numbers, left⟩ := ih (NoteBody.fresh body supply).2
    rw [List.mapM_cons]
    refine ⟨congrArg (supply.note :: ·) numbers, left.trans ?_⟩
    rw [List.length_cons, Nat.add_comm rest.length, ← Nat.add_assoc]
    rfl

theorem freshDocument_named (r : Record NoteBody) (supply : Supply) :
    Named supply (r.freshDocument supply).2 (r.freshDocument supply).1.notes := by
  obtain ⟨numbers, left⟩ := fresh_numbers r.notes supply
  have made : (r.freshDocument supply).1
      = document { r with notes := (r.notes.mapM NoteBody.fresh supply).1 }
        ⟨(r.notes.mapM NoteBody.fresh supply).2.handle⟩ := rfl
  have after : (r.freshDocument supply).2.note = supply.note + r.notes.length := left
  have listed : (r.freshDocument supply).1.notes.map (·.id.number)
      = List.range' supply.note r.notes.length := by
    rw [made, document, Document.addNotes_exact, List.nil_append, List.map_map]
    exact numbers
  refine ⟨by omega, ?_, ?_⟩
  · intro n member
    have number := List.mem_map_of_mem (f := fun n : Note => n.id.number) member
    rw [listed, List.mem_range'_1] at number
    omega
  · intro m left n right same
    have distinct : ((r.freshDocument supply).1.notes.map (·.id.number)).Nodup := by
      rw [listed]
      exact List.nodup_range'
    exact List.inj_on_of_nodup_map distinct left right (congrArg NoteId.number same)

theorem mem_document_notes {r : Record Note} {h : Handle} {n : Note} (member : n ∈ (r.document h).notes) :
    ∃ m ∈ r.notes, n = m.rehomed (r.document h).handle := by
  rw [document, Document.addNotes_exact, List.nil_append] at member
  obtain ⟨m, listed, rfl⟩ := List.mem_map.mp member
  refine ⟨m, listed, ?_⟩
  rw [document, Document.addNotes_handle]

end Record

namespace Document

theorem extend_count (splitter : Splitter) (text : String) (d : Document) (supply : Supply) :
    (splitter.extend text d supply).2.note = supply.note := by
  rw [extend_left]
  rfl

theorem document_count (splitter : Splitter) (text : String) (supply : Supply) :
    (splitter.document text supply).2.note = supply.note :=
  extend_count splitter text (Document.fresh supply).1 (Document.fresh supply).2

theorem document_notes {splitter : Splitter} {text : String} {supply next : Supply} {d : Document}
    (made : splitter.document text supply = (.ok d, next)) : d.notes = [] ∧ next.note = supply.note := by
  have count := document_count splitter text supply
  rw [made] at count
  refine ⟨?_, count⟩
  -- The text is added to a fresh document, and adding text leaves the notes as they are.
  have kept := (splitter.extend_overlay text (Document.fresh supply).1 (Document.fresh supply).2).notes
  have parts : (splitter.document text supply).1
      = (splitter.extend text (Document.fresh supply).1 (Document.fresh supply).2).1.1.map
        fun _ => (splitter.extend text (Document.fresh supply).1 (Document.fresh supply).2).1.2 := rfl
  rw [made] at parts
  cases done : (splitter.extend text (Document.fresh supply).1 (Document.fresh supply).2).1.1 with
  | error fault =>
    rw [done] at parts
    cases parts
  | ok _ =>
    rw [done] at parts
    cases Except.ok.inj parts
    exact kept

-- A new document has the notes of one that was there, or notes with new names.
theorem Opened.notes {others : List Document} {supply next : Supply} {d : Document}
    (opened : Opened others supply d next) :
    (next.note = supply.note ∧ ∀ n ∈ d.notes, ∃ e ∈ others, ∃ m ∈ e.notes, n = m.rehomed d.handle)
      ∨ Named supply next d.notes := by
  cases opened with
  | fresh => exact .inl ⟨rfl, fun n member => absurd member List.not_mem_nil⟩
  | ofText made =>
    obtain ⟨bare, left⟩ := document_notes made
    exact .inl ⟨left, by simp [bare]⟩
  | copied held transform => exact .inl ⟨rfl, fun n member => absurd member List.not_mem_nil⟩
  | @reloaded e held =>
    refine .inl ⟨rfl, fun n member => ?_⟩
    obtain ⟨m, listed, same⟩ := Record.mem_document_notes member
    exact ⟨e, held, m, listed, same⟩
  | read r => exact .inr (r.freshDocument_named supply)

-- The names of the notes that an append moves.
def moved (d other : Document) : List NoteId := if d.joint = 0 then [] else other.notes.map (·.id)

end Document

-- Documents in use, notes at hand beside them, and the hits of queries under the handles of the
-- documents that ask.
structure Corpus where
  supply : Supply
  documents : List Document
  notes : List Note
  queries : List (Handle × List Hit)

namespace Corpus

open Document Note

-- Where a note can be taken from: it is at hand, on a document, in a hit, or on the document of a hit.
inductive Has (w : Corpus) (n : Note) : Prop where
  | atHand (held : n ∈ w.notes) : Has w n
  | noted {d : Document} (held : d ∈ w.documents) (noted : n ∈ d.notes) : Has w n
  | hit {q : Handle × List Hit} {h : Hit} (asked : q ∈ w.queries) (listed : h ∈ q.2) (same : h.note = n) : Has w n
  | behindHit {q : Handle × List Hit} {h : Hit} (asked : q ∈ w.queries) (listed : h ∈ q.2)
      (noted : n ∈ h.document.notes) : Has w n

-- One operation, and the notes that it moves or relabels. A copy at hand stays when it is changed, and
-- only notes that are had are added to documents or recorded as hits. A note is written with its first
-- label, and a query is made as a document is.
inductive Step (w : Corpus) : Altered → Corpus → Prop where
  | opened {d : Document} {supply : Supply} (made : Opened w.documents w.supply d supply) :
      Step w .none { w with supply, documents := d :: w.documents }
  | refused {splitter : Splitter} {text : String} {fault : Fault}
      (refused : (splitter.document text w.supply).1 = .error fault) :
      Step w .none { w with supply := (splitter.document text w.supply).2 }
  | rebuilt (r : Record Note) (known : ∀ n ∈ r.notes, w.Has n) :
      Step w .none { w with
        supply := (Supply.freshHandle w.supply).2
        documents := r.document (Supply.freshHandle w.supply).1 :: w.documents }
  | changed {d e : Document} {others : List Document} (held : w.documents.Perm (d :: others))
      (changed : d.Changed e)
      (known : ∀ n ∈ e.notes, n ∈ d.notes ∨ ∃ m ∈ w.notes, n = m.rehomed d.handle) :
      Step w .none { w with documents := e :: others }
  | extended {d : Document} {others : List Document} (held : w.documents.Perm (d :: others))
      (splitter : Splitter) (text : String) :
      Step w .none { w with
        supply := (splitter.extend text d w.supply).2
        documents := (splitter.extend text d w.supply).1.2 :: others }
  | replaced {d : Document} {others : List Document} (held : w.documents.Perm (d :: others))
      (splitter : Splitter) (text : String) :
      Step w .none { w with
        supply := (splitter.replace text d w.supply).2
        documents := (splitter.replace text d w.supply).1.2 :: others }
  | appended {d other : Document} {others : List Document}
      (held : w.documents.Perm (d :: other :: others)) :
      Step w ⟨d.moved other, []⟩ { w with documents := d.append other :: others }
  | dropped {d : Document} {others : List Document} (held : w.documents.Perm (d :: others)) :
      Step w .none { w with documents := others }
  | written (body : NoteBody) :
      Step w .none { w with supply := (body.fresh w.supply).2, notes := (body.fresh w.supply).1 :: w.notes }
  | copied {n : Note} (there : w.Has n) : Step w .none { w with notes := n :: w.notes }
  | rescored {n : Note} (held : n ∈ w.notes) (confidence : Binary .double) :
      Step w .none { w with notes := n.withConfidence confidence :: w.notes }
  | relabelled {n : Note} (held : n ∈ w.notes) (label : String) :
      Step w ⟨[], [n.id]⟩ { w with notes := n.withLabel label :: w.notes }
  | asked {d : Document} (held : d ∈ w.documents) : Step w .none { w with queries := (d.handle, []) :: w.queries }
  | answered {d e : Document} {hits : List Hit} {others : List (Handle × List Hit)} {n : Note}
      (listed : w.queries.Perm ((d.handle, hits) :: others)) (target : e ∈ w.documents) (held : n ∈ w.notes) :
      Step w .none { w with queries := (d.handle, ((Query.mk d hits).addHit e n).2.hits) :: others }
  | closed {q : Handle × List Hit} {others : List (Handle × List Hit)} (listed : w.queries.Perm (q :: others)) :
      Step w .none { w with queries := others }

-- What operations reach from nothing, and all notes that were moved or relabelled on the way.
inductive Run : Altered → Corpus → Prop where
  | start : Run .none ⟨.initial, [], [], []⟩
  | step {altered more : Altered} {w next : Corpus} (run : Run altered w) (step : w.Step more next) :
      Run (more ++ altered) next

structure Sound (altered : Altered) (w : Corpus) : Prop where
  named : ∀ n, w.Has n → n.id.number < w.supply.note
  alike : ∀ m n, w.Has m → w.Has n → m.id = n.id → m.Stems altered n

-- The note is one of the new ones, or a copy of one that is had.
def Traces (w : Corpus) (altered : Altered) (fresh : List Note) (n : Note) : Prop :=
  n ∈ fresh ∨ ∃ m, w.Has m ∧ n.Stems altered m

theorem Has.traces {w : Corpus} {n : Note} (there : w.Has n) (altered : Altered) (fresh : List Note) :
    w.Traces altered fresh n :=
  .inr ⟨n, there, .refl altered n⟩

-- Whatever is had afterwards was had before or has a new name, and new names are not shared.
theorem Sound.added {altered wider : Altered} {w next : Corpus} (sound : Sound altered w)
    (more : altered.Within wider) {fresh : List Note} (named : Named w.supply next.supply fresh)
    (traces : ∀ n, next.Has n → w.Traces wider fresh n) : Sound wider next := by
  refine ⟨?_, ?_⟩
  · intro n there
    rcases traces n there with new | ⟨m, had, stems⟩
    · exact (named.named n new).2
    · rw [stems.id]
      exact Nat.lt_of_lt_of_le (sound.named m had) named.grown
  · intro a b a_there b_there same
    rcases traces a a_there with a_new | ⟨m, m_had, a_stems⟩ <;>
      rcases traces b b_there with b_new | ⟨n, n_had, b_stems⟩
    · rw [named.apart a a_new b b_new same]
      exact .refl _ _
    · have old := sound.named n n_had
      rw [← b_stems.id, ← same] at old
      exact absurd (named.named a a_new).1 (Nat.not_le_of_lt old)
    · have old := sound.named m m_had
      rw [← a_stems.id, same] at old
      exact absurd (named.named b b_new).1 (Nat.not_le_of_lt old)
    · have names : m.id = n.id := a_stems.id.symm.trans (same.trans b_stems.id)
      exact (a_stems.trans ((sound.alike m n m_had n_had names).wider more)).trans b_stems.symm

theorem Sound.later {altered wider : Altered} {w next : Corpus} (sound : Sound altered w)
    (more : altered.Within wider) (count : next.supply.note = w.supply.note)
    (traces : ∀ n, next.Has n → w.Traces wider [] n) : Sound wider next := by
  have unnamed : Named w.supply next.supply [] := ⟨Nat.le_of_eq count.symm, by simp, by simp⟩
  exact sound.added more unnamed traces

theorem Has.holds {w : Corpus} {P : Note → Prop} (documents : ∀ d ∈ w.documents, ∀ n ∈ d.notes, P n)
    (notes : ∀ n ∈ w.notes, P n) (queries : ∀ q ∈ w.queries, ∀ h ∈ q.2, P h.note ∧ ∀ n ∈ h.document.notes, P n)
    (n : Note) (there : w.Has n) : P n := by
  cases there with
  | atHand held => exact notes n held
  | noted held noted => exact documents _ held n noted
  | hit asked listed same => exact same ▸ (queries _ asked _ listed).1
  | behindHit asked listed noted => exact (queries _ asked _ listed).2 n noted

section Parts

variable (w : Corpus) {altered : Altered} {fresh : List Note}

theorem documents_trace : ∀ d ∈ w.documents, ∀ n ∈ d.notes, w.Traces altered fresh n :=
  fun _ held _ noted => Has.traces (.noted held noted) altered fresh

theorem notes_trace : ∀ n ∈ w.notes, w.Traces altered fresh n :=
  fun _ held => Has.traces (.atHand held) altered fresh

theorem queries_trace : ∀ q ∈ w.queries, ∀ h ∈ q.2,
    w.Traces altered fresh h.note ∧ ∀ n ∈ h.document.notes, w.Traces altered fresh n :=
  fun _ asked _ listed => ⟨Has.traces (.hit asked listed rfl) altered fresh,
    fun _ noted => Has.traces (.behindHit asked listed noted) altered fresh⟩

variable {w}

theorem beside_trace {e : Document} {others : List Document} (rest : ∀ d ∈ others, d ∈ w.documents)
    (notes : ∀ n ∈ e.notes, w.Traces altered fresh n) :
    ∀ d ∈ e :: others, ∀ n ∈ d.notes, w.Traces altered fresh n :=
  List.forall_mem_cons.mpr ⟨notes, fun d other => w.documents_trace d (rest d other)⟩

theorem same_trace {d e : Document} {others : List Document} (held : w.documents.Perm (d :: others))
    (same : e.notes = d.notes) : ∀ d ∈ e :: others, ∀ n ∈ d.notes, w.Traces altered fresh n := by
  refine beside_trace (fun x other => held.mem_iff.mpr (List.mem_cons_of_mem _ other)) ?_
  rw [same]
  exact w.documents_trace d (held.mem_iff.mpr List.mem_cons_self)

theorem appended_trace {d other : Document} {others : List Document}
    (held : w.documents.Perm (d :: other :: others)) (listed : d.moved other ⊆ altered.moved) :
    ∀ n ∈ (d.append other).notes, w.Traces altered fresh n := by
  intro n noted
  rw [append_notes] at noted
  rcases List.mem_append.mp noted with old | brought
  · exact w.documents_trace d (held.mem_iff.mpr List.mem_cons_self) n old
  · obtain ⟨m, there, rfl⟩ := List.mem_map.mp brought
    have second : other ∈ w.documents := held.mem_iff.mpr (List.mem_cons_of_mem _ List.mem_cons_self)
    have stems : (m.shifted d.joint).Stems altered m := by
      refine shifted_stems fun moves => listed ?_
      rw [moved, if_neg moves]
      exact List.mem_map_of_mem there
    exact .inr ⟨m, .noted second there, (rehomed_stems _ (m.shifted d.joint) d.handle).trans stems⟩

end Parts

theorem Step.sound {altered more : Altered} {w next : Corpus} (sound : Sound altered w)
    (step : w.Step more next) : Sound (more ++ altered) next := by
  have wider : altered.Within (more ++ altered) := Altered.within_right more altered
  cases step with
  | @opened d supply made =>
    rcases made.notes with ⟨count, copies⟩ | named
    · refine sound.later wider count (Has.holds (beside_trace (fun _ other => other) ?_) w.notes_trace w.queries_trace)
      intro n noted
      obtain ⟨e, held, m, listed, rfl⟩ := copies n noted
      exact .inr ⟨m, .noted held listed, rehomed_stems _ m d.handle⟩
    · exact sound.added wider named (Has.holds
        (beside_trace (fun _ other => other) fun _ noted => .inl noted) w.notes_trace w.queries_trace)
  | @refused splitter text fault refused =>
    exact sound.later wider (document_count splitter text w.supply)
      (Has.holds w.documents_trace w.notes_trace w.queries_trace)
  | rebuilt r known =>
    refine sound.later wider rfl (Has.holds (beside_trace (fun _ other => other) ?_) w.notes_trace w.queries_trace)
    intro n noted
    obtain ⟨m, listed, rfl⟩ := Record.mem_document_notes noted
    exact .inr ⟨m, known m listed, rehomed_stems _ m _⟩
  | @changed d e others held changed known =>
    refine sound.later wider rfl (Has.holds (beside_trace ?_ ?_) w.notes_trace w.queries_trace)
    · exact fun x other => held.mem_iff.mpr (List.mem_cons_of_mem _ other)
    · intro n noted
      rcases known n noted with old | ⟨m, at_hand, rfl⟩
      · exact w.documents_trace d (held.mem_iff.mpr List.mem_cons_self) n old
      · exact .inr ⟨m, .atHand at_hand, rehomed_stems _ m d.handle⟩
  | @extended d others held splitter text =>
    have kept := (splitter.extend_overlay text d w.supply).notes
    exact sound.later wider (extend_count splitter text d w.supply)
      (Has.holds (same_trace held kept) w.notes_trace w.queries_trace)
  | @replaced d others held splitter text =>
    have kept := (splitter.extend_overlay text d.cleared w.supply).notes
    exact sound.later wider (extend_count splitter text d.cleared w.supply)
      (Has.holds (same_trace held kept) w.notes_trace w.queries_trace)
  | @appended d other others held =>
    refine sound.later wider rfl (Has.holds (beside_trace ?_ ?_) w.notes_trace w.queries_trace)
    · exact fun x there => held.mem_iff.mpr (List.mem_cons_of_mem _ (List.mem_cons_of_mem _ there))
    · exact appended_trace held (Altered.within_left ⟨d.moved other, []⟩ altered).moved
  | dropped held =>
    refine sound.later wider rfl (Has.holds ?_ w.notes_trace w.queries_trace)
    exact fun x other => w.documents_trace x (held.mem_iff.mpr (List.mem_cons_of_mem _ other))
  | written body =>
    refine sound.added wider (body.fresh_named w.supply) (Has.holds w.documents_trace ?_ w.queries_trace)
    exact List.forall_mem_cons.mpr ⟨.inl List.mem_cons_self, w.notes_trace⟩
  | copied there =>
    refine sound.later wider rfl (Has.holds w.documents_trace ?_ w.queries_trace)
    exact List.forall_mem_cons.mpr ⟨there.traces _ _, w.notes_trace⟩
  | @rescored n held confidence =>
    refine sound.later wider rfl (Has.holds w.documents_trace ?_ w.queries_trace)
    exact List.forall_mem_cons.mpr ⟨.inr ⟨n, .atHand held, withConfidence_stems _ n confidence⟩, w.notes_trace⟩
  | @relabelled n held label =>
    refine sound.later wider rfl (Has.holds w.documents_trace ?_ w.queries_trace)
    exact List.forall_mem_cons.mpr
      ⟨.inr ⟨n, .atHand held, withLabel_stems List.mem_cons_self label⟩, w.notes_trace⟩
  | asked held =>
    refine sound.later wider rfl (Has.holds w.documents_trace w.notes_trace ?_)
    exact List.forall_mem_cons.mpr ⟨fun h listed => absurd listed List.not_mem_nil, w.queries_trace⟩
  | @answered d e hits others n listed target held =>
    refine sound.later wider rfl (Has.holds w.documents_trace w.notes_trace ?_)
    refine List.forall_mem_cons.mpr ⟨fun h placed => ?_, fun q other => ?_⟩
    · rcases Query.mem_place placed with rfl | old
      · exact ⟨.inr ⟨n, .atHand held, rehomed_stems _ n e.handle⟩, w.documents_trace e target⟩
      · exact w.queries_trace _ (listed.mem_iff.mpr List.mem_cons_self) h old
    · exact w.queries_trace q (listed.mem_iff.mpr (List.mem_cons_of_mem _ other))
  | closed listed =>
    refine sound.later wider rfl (Has.holds w.documents_trace w.notes_trace ?_)
    exact fun q other => w.queries_trace q (listed.mem_iff.mpr (List.mem_cons_of_mem _ other))

theorem Run.sound {altered : Altered} {w : Corpus} (run : Run altered w) : Sound altered w := by
  induction run with
  | start =>
    have nothing : ∀ n, ¬ Has ⟨.initial, [], [], []⟩ n := fun n there => by cases there <;> contradiction
    exact ⟨fun n there => absurd there (nothing n), fun m n there => absurd there (nothing m)⟩
  | step run step ih => exact step.sound ih

theorem Sound.repeats {altered : Altered} {w : Corpus} (sound : Sound altered w) {q : Handle × List Hit}
    (asked : q ∈ w.queries) {d e : Document} {n : Note} (there : w.Has n)
    (held : (Query.mk d q.2).Holds (Query.callRank (e, n))) : ∃ h ∈ q.2, h.Repeats altered e n := by
  obtain ⟨h, listed, same⟩ := held
  refine ⟨h, listed, congrArg Hit.Rank.document same, congrArg Hit.Rank.relevance same, ?_⟩
  exact sound.alike h.note n (.hit asked listed rfl) there (congrArg Hit.Rank.note same)

-- A hit is turned away only where one for a copy of its note is held, of the same kind and source, of the
-- same range unless a copy was moved on the way, and with the same label unless one was relabelled.
-- No other hit is lost.
theorem run_rejected_alike {altered : Altered} {w : Corpus} (run : Run altered w) {q : Handle × List Hit}
    (asked : q ∈ w.queries) (d e : Document) {n : Note} (there : w.Has n) :
    (((Query.mk d q.2).addHit e n).1 = false → ∃ h ∈ q.2, h.Repeats altered e n)
      ∧ ((∀ h ∈ q.2, ¬ h.Repeats altered e n) → ((Query.mk d q.2).addHit e n).1 = true
        ∧ ((Query.mk d q.2).addHit e n).2.hits.Perm (⟨e, n.rehomed e.handle⟩ :: q.2)) := by
  by_cases held : (Query.mk d q.2).Holds (Query.callRank (e, n))
  · obtain ⟨h, listed, repeated⟩ := run.sound.repeats asked there held
    exact ⟨fun _ => ⟨h, listed, repeated⟩, fun none_repeats => absurd repeated (none_repeats h listed)⟩
  · obtain ⟨added, kept⟩ := Query.addHit_new held
    refine ⟨fun rejected => ?_, fun _ => ⟨added, kept⟩⟩
    rw [added] at rejected
    cases rejected

-- A line, a note with a hit in it, and the same note with another score.
def line : Document := (empty ⟨1⟩).addInPlace Desk.upperLine

def remark : Note := (NoteBody.plain .mention .gold (.clamped 0 2)).named ⟨1⟩

def faint : Note := remark.withConfidence (.ofWord false 0)

def recorded : Corpus :=
  ⟨⟨3, 2⟩, [.empty ⟨2⟩, line], [faint, remark], [(⟨2⟩, [⟨line, remark.rehomed ⟨1⟩⟩])]⟩

theorem line_run : Run .none ⟨⟨3, 2⟩, [.empty ⟨2⟩, line], [remark], []⟩ := by
  have opened : Run .none ⟨⟨2, 1⟩, [.empty ⟨1⟩], [], []⟩ := .step .start (.opened .fresh)
  have lined : Run .none ⟨⟨2, 1⟩, [line], [], []⟩ :=
    .step opened (.changed (.refl _) (.addInPlace Desk.upperLine) fun n noted => .inl noted)
  have made : Run .none ⟨⟨3, 1⟩, [.empty ⟨2⟩, line], [], []⟩ := .step lined (.opened .fresh)
  exact .step made (.written _)

theorem recorded_run : Run .none recorded := by
  have rescored : Run .none ⟨⟨3, 2⟩, [.empty ⟨2⟩, line], [faint, remark], []⟩ :=
    .step line_run (.rescored (List.mem_singleton.mpr rfl) _)
  have asked : Run .none ⟨⟨3, 2⟩, [.empty ⟨2⟩, line], [faint, remark], [(⟨2⟩, [])]⟩ :=
    .step rescored (@Step.asked _ (.empty ⟨2⟩) (by simp))
  exact .step asked (@Step.answered _ (.empty ⟨2⟩) line [] [] remark (.refl _) (by simp) (by simp))

theorem recorded_repeats_rejected : Run .none recorded
    ∧ ((Query.mk (.empty ⟨2⟩) [⟨line, remark.rehomed ⟨1⟩⟩]).addHit line remark).1 = false
    ∧ (∃ h ∈ [Hit.mk line (remark.rehomed ⟨1⟩)], h.Repeats .none line remark)
    ∧ ((Query.mk (.empty ⟨2⟩) [⟨line, remark.rehomed ⟨1⟩⟩]).addHit line faint).1 = true := by
  have asked : (⟨2⟩, [Hit.mk line (remark.rehomed ⟨1⟩)]) ∈ recorded.queries := by simp [recorded]
  have rejected : ((Query.mk (.empty ⟨2⟩) [⟨line, remark.rehomed ⟨1⟩⟩]).addHit line remark).1 = false := by decide
  have there : recorded.Has remark := .atHand (by simp [recorded])
  have copied : recorded.Has faint := .atHand (by simp [recorded])
  have differs : ∀ h ∈ [Hit.mk line (remark.rehomed ⟨1⟩)], ¬ h.Repeats .none line faint := by
    intro h listed repeated
    cases List.mem_singleton.mp listed
    exact absurd repeated.relevance (by decide)
  exact ⟨recorded_run, rejected, (run_rejected_alike recorded_run asked _ line there).1 rejected,
    ((run_rejected_alike recorded_run asked (.empty ⟨2⟩) line copied).2 differs).1⟩

-- The note as it comes with a line that is appended, and the note with a label.
def joined : Document := line.append (((empty ⟨2⟩).addInPlace Desk.upperLine).addNote remark)

def carried : Note := (remark.shifted 3).rehomed ⟨1⟩

def labelled : Note := remark.withLabel "LOC"

def diverged : Corpus :=
  ⟨⟨4, 2⟩, [.empty ⟨3⟩, joined], [labelled, remark], [(⟨3⟩, [⟨joined, remark.rehomed ⟨1⟩⟩])]⟩

theorem diverged_run : Run ⟨[⟨1⟩], [⟨1⟩]⟩ diverged := by
  have other : Run .none ⟨⟨3, 2⟩, [(empty ⟨2⟩).addInPlace Desk.upperLine, line], [remark], []⟩ :=
    .step line_run (.changed (.refl _) (.addInPlace Desk.upperLine) fun n noted => .inl noted)
  have noted : Run .none ⟨⟨3, 2⟩, [((empty ⟨2⟩).addInPlace Desk.upperLine).addNote remark, line], [remark], []⟩ := by
    refine .step other (.changed (.refl _) (.noted remark) fun n noted => .inr ⟨remark, by simp, ?_⟩)
    exact List.mem_singleton.mp noted
  have appended : Run ⟨[⟨1⟩], []⟩ ⟨⟨3, 2⟩, [joined], [remark], []⟩ := .step noted (.appended (.swap _ _ []))
  have named : Run ⟨[⟨1⟩], [⟨1⟩]⟩ ⟨⟨3, 2⟩, [joined], [labelled, remark], []⟩ :=
    .step appended (@Step.relabelled _ remark (List.mem_singleton.mpr rfl) "LOC")
  have made : Run ⟨[⟨1⟩], [⟨1⟩]⟩ ⟨⟨4, 2⟩, [.empty ⟨3⟩, joined], [labelled, remark], []⟩ := .step named (.opened .fresh)
  have asked : Run ⟨[⟨1⟩], [⟨1⟩]⟩ ⟨⟨4, 2⟩, [.empty ⟨3⟩, joined], [labelled, remark], [(⟨3⟩, [])]⟩ :=
    .step made (@Step.asked _ (.empty ⟨3⟩) (by simp))
  exact .step asked (@Step.answered _ (.empty ⟨3⟩) joined [] [] remark (.refl _) (by simp) (by simp))

-- The only hit that is held has no label, and it stands where the carried note does not.
theorem diverged_hits_lost : Run ⟨[⟨1⟩], [⟨1⟩]⟩ diverged
    ∧ (⟨3⟩, [Hit.mk joined (remark.rehomed ⟨1⟩)]) ∈ diverged.queries
    ∧ diverged.Has labelled ∧ diverged.Has carried
    ∧ (∀ n ∈ [labelled, carried],
      ((Query.mk (.empty ⟨3⟩) [⟨joined, remark.rehomed ⟨1⟩⟩]).addHit joined n).1 = false)
    ∧ labelled.label = some "LOC" ∧ carried.span = .clamped 3 2
    ∧ ∀ h ∈ [Hit.mk joined (remark.rehomed ⟨1⟩)], h.note.label = none ∧ h.note.span = .clamped 0 2 := by
  have asked : (⟨3⟩, [Hit.mk joined (remark.rehomed ⟨1⟩)]) ∈ diverged.queries := by simp [diverged]
  have named : diverged.Has labelled := .atHand (by simp [diverged])
  have brought : diverged.Has carried := .noted (by simp [diverged]) (d := joined) (by decide)
  exact ⟨diverged_run, asked, named, brought, by decide, by decide, by decide, by decide⟩

end Corpus

end Marginalia
