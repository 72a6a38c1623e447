import Marginalia.Proofs.Homes
import Marginalia.Proofs.Windows
import Mathlib.Data.List.Nodup

namespace Marginalia

theorem bind_ok {ε α β : Type} {first : Except ε α} {next : α → Except ε β} {b : β} :
    (first >>= next) = .ok b ↔ ∃ a, first = .ok a ∧ next a = .ok b := by
  cases first with
  | error e => exact ⟨nofun, nofun⟩
  | ok a => exact ⟨fun made => ⟨a, rfl, made⟩, fun ⟨_, same, made⟩ => by cases same; exact made⟩

namespace Generator

variable {σ α : Type}

-- Swaps lose and double nothing, whatever is drawn.
theorem shuffleFrom_perm (g : Generator σ) {last : Nat} {items shuffled : Array α} {state next : σ}
    (drawn : g.shuffleFrom last items state = some (shuffled, next)) : shuffled.Perm items := by
  induction last generalizing items state with
  | zero =>
    cases Option.some.inj drawn
    exact .refl _
  | succ last ih =>
    obtain ⟨⟨index, later⟩, _, swapped⟩ := Option.bind_eq_some_iff.mp drawn
    dsimp only at swapped
    split at swapped
    · exact (ih swapped).trans (Array.swap_perm _ _)
    · cases swapped

theorem shuffle_perm (g : Generator σ) {items shuffled : List α} {state next : σ}
    (drawn : g.shuffle items state = some (shuffled, next)) : shuffled.Perm items := by
  obtain ⟨⟨array, later⟩, swapped, same⟩ := Option.map_eq_some_iff.mp drawn
  cases same
  exact Array.perm_iff_toList_perm.mp (g.shuffleFrom_perm swapped)

end Generator

namespace Document

-- Every index finds a sentence.
def Finds (d : Document) (indices : List Nat) : Prop := ∀ i ∈ indices, i < d.sentences.length

theorem sentence_present {d : Document} {index : Nat} (here : index < d.sentences.length) :
    d.sentence index = .ok d.sentences[index] := by
  rw [sentence, List.getElem?_eq_getElem here]

theorem sentence_missing {d : Document} {index : Nat} (past : d.sentences.length ≤ index) :
    d.sentence index = .error (.noSuchIndex index d.sentences.length) := by
  rw [sentence, List.getElem?_eq_none past]

theorem sentence_found {d : Document} {index : Nat} {s : Sentence} (found : d.sentence index = .ok s) :
    index < d.sentences.length := by
  unfold sentence at found
  split at found
  · rename_i present
    exact (List.getElem?_eq_some_iff.mp present).1
  · cases found

-- Indices that find their sentences show exactly these, one each.
theorem Finds.shown {d : Document} {indices : List Nat} (finds : d.Finds indices) :
    (indices.filterMap (d.sentences[·]?)).map some = indices.map (d.sentences[·]?) := by
  induction indices with
  | nil => rfl
  | cons i rest ih =>
    have here := List.getElem?_eq_getElem (finds i (by simp))
    rw [List.filterMap_cons_some here, List.map_cons, List.map_cons, here,
      ih fun j member => finds j (by simp [member])]

-- What finds its sentences goes on finding them in a document with more.
theorem Finds.grown {d e : Document} {indices : List Nat} (finds : d.Finds indices)
    (grown : d.sentences.length ≤ e.sentences.length) : e.Finds indices :=
  fun i member => Nat.lt_of_lt_of_le (finds i member) grown

-- What one operation makes of a document that keeps its text or adds to it. A selection forwards
-- notes to its document.
inductive Changed (d : Document) : Document → Prop where
  | addAtEnd (s : Sentence) : Changed d (d.addAtEnd s)
  | addInPlace (s : Sentence) : Changed d (d.addInPlace s)
  | edited (index : Nat) (edit : Token → Token) : Changed d (d.editToken index edit)
  | noted (n : Note) : Changed d (d.addNote n)
  | allNoted (notes : List Note) : Changed d (d.addNotes notes)
  | forwarded {s : Selection} {n : Note} {e : Document} (made : s.addNote d n = .ok e) : Changed d e
  | allForwarded {s : Selection} {notes : List Note} {e : Document}
      (made : s.addNotes d notes = .ok e) : Changed d e
  | notesCleared (source : Source) (kind : Kind) : Changed d (d.clearNotes source kind)
  | noteRemoved (id : NoteId) : Changed d (d.removeNote id).2
  | tagged (source : Source) (tag : String) (present : Bool) : Changed d (d.setTag source tag present)
  | described (metadata : Metadata) : Changed d { d with metadata }

theorem editSentences_length (edit : Token → Token) (index : Nat) (sentences : List Sentence) :
    (editSentences edit index sentences).length = sentences.length := by
  induction sentences generalizing index with
  | nil => rfl
  | cons s rest ih =>
    unfold editSentences
    split
    · rfl
    · simp only [List.length_cons, ih]

-- The document stays the same one, and no sentence is lost.
structure Kept (d e : Document) : Prop where
  handle : e.handle = d.handle
  sentences : d.sentences.length ≤ e.sentences.length

theorem kept_of_same {d e : Document} (handle : e.handle = d.handle) (sentences : e.sentences = d.sentences) :
    d.Kept e :=
  ⟨handle, Nat.le_of_eq (congrArg List.length sentences).symm⟩

theorem addNotes_kept (d : Document) (notes : List Note) : d.Kept (d.addNotes notes) :=
  kept_of_same (addNotes_handle d notes) (addNotes_tree d notes).2

theorem Changed.kept {d e : Document} (changed : d.Changed e) : d.Kept e := by
  cases changed with
  | addAtEnd s => exact ⟨rfl, by simp [Document.addAtEnd]⟩
  | addInPlace s => exact ⟨rfl, by simp⟩
  | edited index edit => exact ⟨rfl, Nat.le_of_eq (editSentences_length _ _ _).symm⟩
  | noted n => exact kept_of_same rfl rfl
  | allNoted notes => exact addNotes_kept d notes
  | @forwarded s n e made =>
    obtain ⟨_, _, forwarded⟩ := bind_ok.mp made
    cases Except.ok.inj forwarded
    exact kept_of_same rfl rfl
  | @allForwarded s notes e made =>
    obtain ⟨_, _, forwarded⟩ := bind_ok.mp made
    cases Except.ok.inj forwarded
    exact addNotes_kept d notes
  | notesCleared source kind => exact kept_of_same rfl rfl
  | noteRemoved id => exact kept_of_same rfl rfl
  | tagged source tag present =>
    exact kept_of_same (setTag_notes d source tag present).2 (setTag_tree d source tag present).2
  | described metadata => exact kept_of_same rfl rfl

theorem append_kept (d other : Document) : d.Kept (d.append other) :=
  ⟨append_handle d other, by simp⟩

theorem extend_kept (splitter : Splitter) (text : String) (d : Document) (supply : Supply) :
    d.Kept (splitter.extend text d supply).1.2 := by
  cases cut : splitter.sentences text with
  | error fault =>
    rw [splitter.extend_refused cut]
    exact kept_of_same rfl rfl
  | ok sentences =>
    rw [splitter.extend_accepted cut]
    exact append_kept d _

end Document

namespace Selection

theorem checked {s : Selection} {d : Document} (fits : s.check d = .ok ()) : d.handle = s.document := by
  unfold check at fits
  split at fits
  · assumption
  · cases fits

theorem view_exact {s : Selection} {d : Document} {view : Snippet} :
    s.view d = .ok view ↔ d.handle = s.document ∧ view = ⟨d, s.indices, s.span⟩ := by
  constructor
  · intro viewed
    obtain ⟨_, fits, made⟩ := bind_ok.mp viewed
    exact ⟨checked fits, (Except.ok.inj made).symm⟩
  · rintro ⟨own, rfl⟩
    rw [view, check, if_pos own]
    rfl

end Selection

namespace Snippet

-- A snippet as the operations make it, from a document or from a selection that was kept.
inductive Taken (kept : List Selection) (d : Document) : Snippet → Prop where
  | ofRange {start length : Nat} {s : Snippet} (made : ofRange d start length = .ok s) : Taken kept d s
  | ofSentences {indices : List Nat} {s : Snippet} (made : ofSentences d indices = .ok s) : Taken kept d s
  | shuffled {σ : Type} {g : Generator σ} {indices : List Nat} {state next : σ} {s : Snippet}
      (made : shuffled g d indices state = .ok (some (s, next))) : Taken kept d s
  | viewed {selection : Selection} {s : Snippet} (held : selection ∈ kept)
      (made : selection.view d = .ok s) : Taken kept d s
  | limited {s t : Snippet} {limit : Option Nat} (taken : Taken kept d s)
      (made : s.limited limit = .ok t) : Taken kept d t
  | added {s t : Snippet} {index : Nat} (taken : Taken kept d s) (made : s.addSentence index = .ok t) :
      Taken kept d t

theorem checkIndices_exact {d : Document} {indices : List Nat} :
    checkIndices d indices = .ok () ↔ d.Finds indices := by
  induction indices with
  | nil => simp [checkIndices, Document.Finds]
  | cons index rest ih =>
    constructor
    · intro accepted
      obtain ⟨s, found, others⟩ := bind_ok.mp accepted
      intro i member
      rcases List.mem_cons.mp member with rfl | later
      · exact Document.sentence_found found
      · exact ih.mp others i later
    · intro finds
      have here := finds index (by simp)
      exact bind_ok.mpr ⟨_, Document.sentence_present here, ih.mpr fun i member => finds i (by simp [member])⟩

theorem ofSentences_exact {d : Document} {indices : List Nat} {s : Snippet} :
    ofSentences d indices = .ok s ↔ d.Finds indices ∧ s = ⟨d, indices, none⟩ := by
  constructor
  · intro made
    obtain ⟨_, accepted, same⟩ := bind_ok.mp made
    exact ⟨checkIndices_exact.mp accepted, (Except.ok.inj same).symm⟩
  · rintro ⟨finds, rfl⟩
    exact bind_ok.mpr ⟨(), checkIndices_exact.mpr finds, rfl⟩

theorem shuffledWith_parts {σ : Type} {g : Generator σ} {d : Document} {indices : List Nat} {state next : σ}
    {s : Snippet} (made : shuffledWith g d indices state = some (.ok s, next)) : d.Finds indices
      ∧ ∃ order, g.shuffle indices state = some (order, next) ∧ s = ⟨d, order, none⟩ := by
  unfold shuffledWith at made
  split at made
  · cases made
  · rename_i listed accepted
    obtain ⟨finds, rfl⟩ := ofSentences_exact.mp accepted
    obtain ⟨⟨order, later⟩, order_drawn, same⟩ := Option.map_eq_some_iff.mp made
    cases same
    exact ⟨finds, order, order_drawn, rfl⟩

theorem shuffled_parts {σ : Type} {g : Generator σ} {d : Document} {indices : List Nat} {state next : σ}
    {s : Snippet} (made : shuffled g d indices state = .ok (some (s, next))) : d.Finds indices
      ∧ ∃ order, g.shuffle indices state = some (order, next) ∧ s = ⟨d, order, none⟩ := by
  unfold shuffled at made
  split at made
  · cases made
  · rename_i drawn
    cases made
    exact shuffledWith_parts drawn
  · cases made

theorem hits_found (d : Document) (w : Window) : d.Finds ((hits d w).map Prod.snd) := by
  intro i listed
  obtain ⟨item, hit, rfl⟩ := List.mem_map.mp listed
  exact (List.mem_zipIdx' (List.mem_filter.mp hit).1).1

theorem limited_same {s t : Snippet} {limit : Option Nat} (made : s.limited limit = .ok t) : s = t := by
  unfold limited at made
  split at made
  · split at made
    · cases made
    · exact Except.ok.inj made
  · exact Except.ok.inj made

theorem Taken.source {kept : List Selection} {d : Document} {s : Snippet} (taken : Taken kept d s) :
    s.source = d := by
  induction taken with
  | ofRange made =>
    obtain ⟨window, _, _, rfl⟩ := ofRange_parts made
    rfl
  | ofSentences made =>
    obtain ⟨_, rfl⟩ := ofSentences_exact.mp made
    rfl
  | shuffled made =>
    obtain ⟨_, _, _, rfl⟩ := shuffled_parts made
    rfl
  | viewed held made =>
    obtain ⟨_, rfl⟩ := Selection.view_exact.mp made
    rfl
  | limited _ made ih => exact limited_same made ▸ ih
  | added _ made ih =>
    obtain ⟨_, _, same⟩ := bind_ok.mp made
    cases Except.ok.inj same
    exact ih

-- Where kept selections find their sentences, so does whatever is taken.
theorem Taken.finds {kept : List Selection} {d : Document} {s : Snippet} (taken : Taken kept d s)
    (found : ∀ selection ∈ kept, d.handle = selection.document → d.Finds selection.indices) :
    d.Finds s.indices := by
  induction taken with
  | ofRange made =>
    obtain ⟨window, _, _, rfl⟩ := ofRange_parts made
    exact hits_found d window.window
  | ofSentences made =>
    obtain ⟨finds, rfl⟩ := ofSentences_exact.mp made
    exact finds
  | @shuffled σ g indices state next s made =>
    obtain ⟨finds, _, drawn, rfl⟩ := shuffled_parts made
    exact fun i member => finds i ((g.shuffle_perm drawn).mem_iff.mp member)
  | viewed held made =>
    obtain ⟨own, rfl⟩ := Selection.view_exact.mp made
    exact found _ held own
  | limited _ made ih => exact limited_same made ▸ ih
  | added taken made ih =>
    obtain ⟨_, present, same⟩ := bind_ok.mp made
    cases Except.ok.inj same
    intro i member
    rcases List.mem_append.mp member with old | new
    · exact ih i old
    · cases List.mem_singleton.mp new
      exact taken.source ▸ Document.sentence_found present

end Snippet

namespace Document

-- How a document comes into being beside others. Each takes a handle of its own.
inductive Opened (others : List Document) (supply : Supply) : Document → Supply → Prop where
  | fresh : Opened others supply (Document.fresh supply).1 (Document.fresh supply).2
  | ofText {splitter : Splitter} {text : String} {d : Document} {next : Supply}
      (made : splitter.document text supply = (.ok d, next)) : Opened others supply d next
  | copied {d : Document} (held : d ∈ others) (transform : String → String) :
      Opened others supply (d.copyWith (Supply.freshHandle supply).1 transform) (Supply.freshHandle supply).2
  | reloaded {d : Document} (held : d ∈ others) :
      Opened others supply (d.record.document (Supply.freshHandle supply).1) (Supply.freshHandle supply).2
  | read (r : Record NoteBody) : Opened others supply (r.freshDocument supply).1 (r.freshDocument supply).2

theorem Opened.numbered {others : List Document} {supply next : Supply} {d : Document}
    (opened : Opened others supply d next) :
    supply.handle ≤ d.handle.number ∧ d.handle.number < next.handle := by
  cases opened with
  | fresh => exact ⟨Nat.le_refl _, Nat.lt_succ_self _⟩
  | @ofText splitter text d next made =>
    unfold Splitter.document Splitter.extend at made
    cases cut : splitter.sentences text with
    | error fault =>
      simp only [cut] at made
      cases made
    | ok sentences =>
      simp only [cut] at made
      cases made
      rw [append_handle]
      exact ⟨Nat.le_refl _, Nat.lt_of_lt_of_le (Nat.lt_succ_self _) (Nat.le_succ _)⟩
  | copied held transform => exact ⟨Nat.le_refl _, Nat.lt_succ_self _⟩
  | reloaded held =>
    rw [Document.record, Record.document, addNotes_handle]
    exact ⟨Nat.le_refl _, Nat.lt_succ_self _⟩
  | read r =>
    have unused := (Record.fresh_notes r.notes supply).2
    have numbered : (r.freshDocument supply).1.handle.number = supply.handle
        ∧ (r.freshDocument supply).2.handle = supply.handle + 1 := by
      rw [← unused]
      exact ⟨congrArg Handle.number (addNotes_handle _ _), rfl⟩
    omega

end Document

-- Documents in use, and selections kept while they change.
structure Desk where
  supply : Supply
  documents : List Document
  selections : List Selection

namespace Desk

open Document Snippet

inductive Step (w : Desk) : Desk → Prop where
  | opened {d : Document} {supply : Supply} (made : Opened w.documents w.supply d supply) :
      Step w { w with supply, documents := d :: w.documents }
  | changed {d e : Document} {others : List Document} (held : w.documents.Perm (d :: others))
      (changed : d.Changed e) : Step w { w with documents := e :: others }
  | extended {d : Document} {others : List Document} (held : w.documents.Perm (d :: others))
      (splitter : Splitter) (text : String) :
      Step w { w with
        supply := (splitter.extend text d w.supply).2
        documents := (splitter.extend text d w.supply).1.2 :: others }
  | appended {d other : Document} {others : List Document}
      (held : w.documents.Perm (d :: other :: others)) :
      Step w { w with documents := d.append other :: others }
  | selected {d : Document} {s : Snippet} (held : d ∈ w.documents) (taken : Taken w.selections d s) :
      Step w { w with selections := s.selection :: w.selections }

-- What a run reaches from an empty desk, and the documents whose text it replaced on the way.
inductive Run : List Handle → Desk → Prop where
  | start (supply : Supply) : Run [] ⟨supply, [], []⟩
  | step {replaced : List Handle} {w next : Desk} (run : Run replaced w) (step : w.Step next) :
      Run replaced next
  | replace {replaced : List Handle} {w : Desk} {d : Document} {others : List Document}
      (run : Run replaced w) (held : w.documents.Perm (d :: others)) (splitter : Splitter) (text : String) :
      Run (d.handle :: replaced) { w with
        supply := (splitter.replace text d w.supply).2
        documents := (splitter.replace text d w.supply).1.2 :: others }

-- No two documents share a handle, no handle is used before it is given out, and a selection
-- finds its sentences unless the text of its document was replaced.
structure Sound (replaced : List Handle) (w : Desk) : Prop where
  distinct : (w.documents.map Document.handle).Nodup
  numbered : ∀ d ∈ w.documents, d.handle.number < w.supply.handle
  given : ∀ s ∈ w.selections, s.document.number < w.supply.handle
  finds : ∀ s ∈ w.selections, ∀ d ∈ w.documents, d.handle = s.document → d.handle ∉ replaced →
    d.Finds s.indices

theorem Sound.listed {replaced : List Handle} {w : Desk} (sound : Sound replaced w)
    {documents : List Document} (same : w.documents.Perm documents) : Sound replaced { w with documents } :=
  ⟨(same.map Document.handle).nodup_iff.mp sound.distinct,
    fun d held => sound.numbered d (same.mem_iff.mpr held), sound.given,
    fun s kept d held => sound.finds s kept d (same.mem_iff.mpr held)⟩

-- One document gives way to a later state of itself. If it lost sentences, its text was replaced.
theorem Sound.updated {replaced : List Handle} {w : Desk} {d e : Document} {others : List Document}
    {supply : Supply} (sound : Sound replaced w) (held : w.documents.Perm (d :: others))
    (same : e.handle = d.handle) (later : w.supply.handle ≤ supply.handle)
    (grown : d.handle ∉ replaced → d.sentences.length ≤ e.sentences.length) :
    Sound replaced ⟨supply, e :: others, w.selections⟩ := by
  have listed := sound.listed held
  refine ⟨?_, ?_, ?_, ?_⟩
  · simpa only [List.map_cons, same] using listed.distinct
  · intro x member
    rcases List.mem_cons.mp member with rfl | other
    · rw [same]
      exact Nat.lt_of_lt_of_le (listed.numbered d (by simp)) later
    · exact Nat.lt_of_lt_of_le (listed.numbered x (by simp [other])) later
  · exact fun s kept => Nat.lt_of_lt_of_le (sound.given s kept) later
  · intro s kept x member own untouched
    rcases List.mem_cons.mp member with rfl | other
    · rw [same] at own untouched
      exact (listed.finds s kept d (by simp) own untouched).grown (grown untouched)
    · exact listed.finds s kept x (by simp [other]) own untouched

theorem Sound.more_replaced {replaced : List Handle} {w : Desk} (sound : Sound replaced w) (handle : Handle) :
    Sound (handle :: replaced) w :=
  ⟨sound.distinct, sound.numbered, sound.given, fun s kept d held own untouched =>
    sound.finds s kept d held own fun before => untouched (List.mem_cons_of_mem _ before)⟩

theorem Sound.without {replaced : List Handle} {w : Desk} {d other : Document} {others : List Document}
    (sound : Sound replaced w) (held : w.documents.Perm (d :: other :: others)) :
    Sound replaced { w with documents := d :: others } := by
  have listed := sound.listed (held.trans (List.Perm.swap other d others))
  refine ⟨?_, fun x member => listed.numbered x (by simp [member]), sound.given,
    fun s kept x member => listed.finds s kept x (by simp [member])⟩
  have distinct := listed.distinct
  rw [List.map_cons] at distinct
  exact (List.nodup_cons.mp distinct).2

theorem Sound.one_handle {replaced : List Handle} {w : Desk} (sound : Sound replaced w) {d e : Document}
    (held : d ∈ w.documents) (other : e ∈ w.documents) (same : d.handle = e.handle) : d = e :=
  List.inj_on_of_nodup_map sound.distinct held other same

theorem extend_supply (splitter : Splitter) (text : String) (d : Document) (supply : Supply) :
    supply.handle ≤ (splitter.extend text d supply).2.handle := by
  unfold Splitter.extend
  cases splitter.sentences text <;> exact Nat.le_succ _

theorem step_sound {replaced : List Handle} {w next : Desk} (sound : Sound replaced w) (step : w.Step next) :
    Sound replaced next := by
  cases step with
  | @opened d supply made =>
    obtain ⟨unused, given_out⟩ := made.numbered
    refine ⟨?_, ?_, ?_, ?_⟩
    · refine List.nodup_cons.mpr ⟨fun listed => ?_, sound.distinct⟩
      obtain ⟨other, held, same⟩ := List.mem_map.mp listed
      have := sound.numbered other held
      rw [same] at this
      omega
    · intro x member
      rcases List.mem_cons.mp member with rfl | other
      · exact given_out
      · have := sound.numbered x other
        dsimp only
        omega
    · intro s kept
      have := sound.given s kept
      dsimp only
      omega
    · intro s kept x member own untouched
      rcases List.mem_cons.mp member with rfl | other
      · have := sound.given s kept
        rw [← own] at this
        omega
      · exact sound.finds s kept x other own untouched
  | changed held changed =>
    exact sound.updated held changed.kept.handle (Nat.le_refl _) fun _ => changed.kept.sentences
  | @extended d others held splitter text =>
    have kept := extend_kept splitter text d w.supply
    exact sound.updated held kept.handle (extend_supply splitter text d w.supply) fun _ => kept.sentences
  | @appended d other others held =>
    have kept := append_kept d other
    exact (sound.without held).updated (.refl _) kept.handle (Nat.le_refl _) fun _ => kept.sentences
  | @selected d s held taken =>
    refine ⟨sound.distinct, sound.numbered, ?_, ?_⟩
    · intro selection kept
      rcases List.mem_cons.mp kept with rfl | old
      · rw [Snippet.selection, taken.source]
        exact sound.numbered d held
      · exact sound.given selection old
    · intro selection kept x member own untouched
      rcases List.mem_cons.mp kept with rfl | old
      · have same : x = d := sound.one_handle member held (own.trans (by rw [Snippet.selection, taken.source]))
        rw [same] at untouched ⊢
        exact taken.finds fun earlier listed own => sound.finds earlier listed d held own untouched
      · exact sound.finds selection old x member own untouched

theorem Run.sound {replaced : List Handle} {w : Desk} (run : Run replaced w) : Sound replaced w := by
  induction run with
  | start supply => exact ⟨by simp, by simp, by simp, by simp⟩
  | step _ step ih => exact step_sound ih step
  | @replace replaced w d others _ held splitter text ih =>
    have kept := extend_kept splitter text d.cleared w.supply
    exact (ih.more_replaced d.handle).updated held kept.handle (extend_supply splitter text d.cleared w.supply)
      fun untouched => absurd (by simp) untouched

-- A selection finds its sentences in whatever became of its document, unless the text was
-- replaced: nothing else takes sentences away.
theorem run_view_finds {replaced : List Handle} {w : Desk} (run : Run replaced w) {s : Selection}
    (kept : s ∈ w.selections) {d : Document} (held : d ∈ w.documents) (untouched : d.handle ∉ replaced)
    {view : Snippet} (viewed : s.view d = .ok view) :
    (∀ i ∈ view.indices, i < d.sentences.length)
      ∧ view.sentences.map some = view.indices.map (d.sentences[·]?) := by
  obtain ⟨own, rfl⟩ := Selection.view_exact.mp viewed
  have finds := run.sound.finds s kept d held own untouched
  exact ⟨finds, finds.shown⟩

-- Two lines, the second of them selected.
def upperLine : Sentence := .ofTokens [.spanning "ab" (.clamped 0 2)]

def lowerLine : Sentence := .ofTokens [.spanning "cd" (.clamped 3 2)]

def twoLines : Document := ((Document.empty ⟨1⟩).addInPlace upperLine).addInPlace lowerLine

def lowerSelection : Selection := ⟨⟨1⟩, [1], none⟩

theorem lower_selected : Run [] ⟨⟨2, 1⟩, [twoLines], [lowerSelection]⟩ := by
  have opened : Run [] ⟨⟨2, 1⟩, [.empty ⟨1⟩], []⟩ := .step (.start .initial) (.opened .fresh)
  have upper : Run [] ⟨⟨2, 1⟩, [(Document.empty ⟨1⟩).addInPlace upperLine], []⟩ :=
    .step opened (.changed (.refl _) (.addInPlace _))
  have lower : Run [] ⟨⟨2, 1⟩, [twoLines], []⟩ := .step upper (.changed (.refl _) (.addInPlace _))
  have taken : ofSentences twoLines [1] = .ok ⟨twoLines, [1], none⟩ := rfl
  exact .step lower (.selected (List.mem_singleton.mpr rfl) (.ofSentences taken))

-- A line more takes nothing away.
theorem grown_view_finds : ∃ w : Desk, Run [] w ∧ lowerSelection ∈ w.selections ∧ ∃ d ∈ w.documents,
    d.sentences.length = 3 ∧ ∃ view, lowerSelection.view d = .ok view ∧ view.indices = [1]
      ∧ view.sentences.map some = view.indices.map (d.sentences[·]?) := by
  let grown : Document := twoLines.addAtEnd upperLine
  have run : Run [] ⟨⟨2, 1⟩, [grown], [lowerSelection]⟩ :=
    .step lower_selected (.changed (.refl _) (.addAtEnd _))
  have kept : lowerSelection ∈ [lowerSelection] := List.mem_singleton.mpr rfl
  have held : grown ∈ [grown] := List.mem_singleton.mpr rfl
  have viewed : lowerSelection.view grown = .ok ⟨grown, [1], none⟩ := rfl
  obtain ⟨_, shown⟩ := run_view_finds run kept held (by simp) viewed
  exact ⟨_, run, kept, grown, held, rfl, _, viewed, rfl, shown⟩

-- A new text with fewer sentences leaves the selection behind, which still fits by its handle.
theorem replaced_view_lost : ∃ w : Desk, Run [⟨1⟩] w ∧ lowerSelection ∈ w.selections ∧ ∃ d ∈ w.documents,
    ∃ view, lowerSelection.view d = .ok view ∧ view.indices = [1] ∧ d.sentences.length = 0 := by
  have replaced := Run.replace lower_selected (.refl _) ⟨fun _ => .ok []⟩ ""
  have viewed : lowerSelection.view twoLines.cleared = .ok ⟨twoLines.cleared, [1], none⟩ := rfl
  exact ⟨_, replaced, List.mem_singleton.mpr rfl, _, List.mem_singleton.mpr rfl, _, viewed, rfl, rfl⟩

end Desk

end Marginalia
