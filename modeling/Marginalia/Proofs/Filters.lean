import Marginalia.Proofs.Overlaps
import Marginalia.Proofs.Selections
import Mathlib.Algebra.GroupWithZero.Nat
import Mathlib.Data.List.Induction

namespace Marginalia

section Labels

variable {α κ : Type} [DecidableEq κ] (label : α → κ)

theorem count_label {key : κ} {rest : List κ} (absent : key ∉ rest) (items : List α) :
    items.countP (label · ∈ key :: rest) = items.countP (label · == key) + items.countP (label · ∈ rest) := by
  induction items with
  | nil => rfl
  | cons x others ih =>
    rw [List.countP_cons, List.countP_cons, List.countP_cons, ih]
    by_cases here : label x = key
    · simp only [here, absent, List.mem_cons_self, beq_self_eq_true, decide_true, decide_false, if_true,
        Bool.false_eq_true, if_false]
      omega
    · have same : label x ∈ key :: rest ↔ label x ∈ rest := by simp [here]
      simp only [same, beq_eq_false_iff_ne.mpr here, Bool.false_eq_true, if_false]
      omega

-- What is counted label by label is counted once, as long as no label is listed twice.
theorem count_labels {labels : List κ} (distinct : labels.Nodup) (items : List α) :
    (labels.map fun key => items.countP (label · == key)).sum = items.countP (label · ∈ labels) := by
  induction labels with
  | nil => simp
  | cons key rest ih =>
    obtain ⟨absent, tail⟩ := List.nodup_cons.mp distinct
    rw [List.map_cons, List.sum_cons, ih tail, count_label label absent]

end Labels

namespace Kind

-- A kind descends from itself, and from all that its parent descends from.
inductive Descends : Kind → Kind → Prop where
  | self (kind : Kind) : Descends kind kind
  | above {kind parent ancestor : Kind} (next : kind.parent = some parent) (further : Descends parent ancestor) :
      Descends kind ancestor

variable {kind ancestor parent : Kind}

-- The steps of the climb suffice from every kind.
theorem lineage_above (next : kind.parent = some parent) : kind.lineage = kind :: parent.lineage := by
  cases kind <;> cases next <;> rfl

theorem climb_descends {steps : Nat} (met : ancestor ∈ lineage.climb steps (some kind)) : kind.Descends ancestor := by
  induction steps generalizing kind with
  | zero => cases met
  | succ steps ih =>
    rcases List.mem_cons.mp met with rfl | further
    · exact .self _
    · cases next : kind.parent with
      | none =>
        rw [next] at further
        cases steps <;> cases further
      | some parent =>
        rw [next] at further
        exact .above next (ih further)

theorem isA_exact : kind.isA ancestor = true ↔ kind.Descends ancestor := by
  rw [isA, List.contains_iff_mem]
  constructor
  · exact climb_descends
  · intro descends
    induction descends with
    | self kind => exact List.mem_cons_self
    | above next _ ih =>
      rw [lineage_above next]
      exact List.mem_cons_of_mem _ ih

theorem descends_generic (kind : Kind) : kind.Descends .generic := isA_exact.mp (by cases kind <;> rfl)

end Kind

def KindMatch.Takes : KindMatch → Kind → Prop
  | .exactly expected, kind => kind = expected
  | .under ancestor, kind => kind.Descends ancestor

theorem KindMatch.accepts_exact {kinds : KindMatch} {kind : Kind} : kinds.accepts kind = true ↔ kinds.Takes kind := by
  cases kinds with
  | exactly expected => exact beq_iff_eq
  | under ancestor => exact Kind.isA_exact

-- A call that sets one condition of a filter.
inductive FilterCall where
  | source (source : Source)
  | kind (kind : Kind)
  | kindUnder (kind : Kind)

namespace FilterCall

def apply (f : Filter) : FilterCall → Filter
  | .source s => f.withSource s
  | .kind k => f.withKind k
  | .kindUnder k => f.withKindUnder k

def source? : FilterCall → Option Source
  | .source s => some s
  | .kind _ | .kindUnder _ => none

def kinds? : FilterCall → Option KindMatch
  | .source _ => none
  | .kind k => some (.exactly k)
  | .kindUnder k => some (.under k)

-- Of the calls on sources the last one counts, and of the calls on kinds, of both sorts, the last one.
def Ask (calls : List FilterCall) (n : Note) : Prop :=
  (∀ source ∈ (calls.filterMap source?).getLast?, n.source = source)
    ∧ ∀ kinds ∈ (calls.filterMap kinds?).getLast?, kinds.Takes n.kind

end FilterCall

namespace Filter

def ofCalls (calls : List FilterCall) : Filter := calls.foldl FilterCall.apply any

theorem ofCalls_last (calls : List FilterCall) (call : FilterCall) :
    ofCalls (calls ++ [call]) = call.apply (ofCalls calls) := by
  rw [ofCalls, List.foldl_append]
  rfl

theorem ofCalls_exact (calls : List FilterCall) :
    ofCalls calls = ⟨(calls.filterMap FilterCall.source?).getLast?, (calls.filterMap FilterCall.kinds?).getLast?⟩ := by
  induction calls using List.reverseRecOn with
  | nil => rfl
  | append_singleton calls call ih =>
    rw [ofCalls_last, ih, List.filterMap_append, List.filterMap_append]
    cases call <;>
      simp [FilterCall.apply, FilterCall.source?, FilterCall.kinds?, withSource, withKind, withKindUnder]

theorem accepts_exact {calls : List FilterCall} {n : Note} :
    (ofCalls calls).accepts n = true ↔ FilterCall.Ask calls n := by
  simp only [ofCalls_exact, accepts, FilterCall.Ask, Bool.and_eq_true, Option.all_eq_true, beq_iff_eq,
    KindMatch.accepts_exact, Option.mem_def]

end Filter

namespace Overlay

variable {α : Type} [Overlay α]

theorem countOfKind_exact (o : α) (kind : Kind) : countOfKind o kind false = (notes o).countP (·.kind == kind) := by
  rw [countOfKind, ofKind, matching, ← List.countP_eq_length_filter]
  rfl

theorem countOfKind_under (o : α) (kind : Kind) : countOfKind o kind true = (notes o).countP (·.kind.isA kind) := by
  rw [countOfKind, ofKind, matching, ← List.countP_eq_length_filter]
  rfl

theorem countBySource_exact (o : α) (source : Source) : countBySource o source = (notes o).countP (·.source == source) := by
  rw [countBySource, bySource, matching, ← List.countP_eq_length_filter]
  refine List.countP_congr fun n _ => ?_
  simp [Filter.accepts, Filter.withSource, Filter.any]

-- Each note is counted under its own kind alone, so no kind is counted twice on the way down.
theorem count_descendants (o : α) {kind : Kind} {kinds : List Kind} (distinct : kinds.Nodup)
    (descend : ∀ k, k ∈ kinds ↔ k.Descends kind) :
    countOfKind o kind true = (kinds.map (countOfKind o · false)).sum := by
  have apart : kinds.map (countOfKind o · false) = kinds.map fun k => (notes o).countP (·.kind == k) :=
    List.map_congr_left fun k _ => countOfKind_exact o k
  rw [apart, count_labels (fun n : Note => n.kind) distinct, countOfKind_under]
  refine List.countP_congr fun n _ => ?_
  rw [decide_eq_true_eq, descend, Kind.isA_exact]

theorem count_sources (o : α) {sources : List Source} (distinct : sources.Nodup) (complete : ∀ s, s ∈ sources) :
    (sources.map (countBySource o)).sum = (notes o).length := by
  have apart : sources.map (countBySource o) = sources.map fun s => (notes o).countP (·.source == s) :=
    List.map_congr_left fun s _ => countBySource_exact o s
  rw [apart, count_labels (fun n : Note => n.source) distinct, List.countP_eq_length]
  exact fun n _ => decide_eq_true (complete n.source)

theorem count_generic (o : α) : countOfKind o .generic true = (notes o).length := by
  rw [countOfKind_under, List.countP_eq_length]
  exact fun n _ => Kind.isA_exact.mpr (Kind.descends_generic n.kind)

-- All that is asked of an overlay, told by the notes it shows: every filter, the queries that stand for one, and
-- how the counts add up.
structure Answers (o : α) : Prop where
  filtered : ∀ calls, Picked (FilterCall.Ask calls) (notes o) (matching o (.ofCalls calls))
  counted : ∀ f, count o f = (matching o f).length
  sourced : ∀ s, bySource o s = matching o (.ofCalls [.source s]) ∧ countBySource o s = (bySource o s).length
  kinded : ∀ k, ofKind o k false = matching o (.ofCalls [.kind k])
    ∧ ofKind o k true = matching o (.ofCalls [.kindUnder k])
    ∧ ∀ under, countOfKind o k under = (ofKind o k under).length
  paired : ∀ s k, bySourceAndKind o s k = matching o (.ofCalls [.source s, .kind k])
    ∧ countBySourceAndKind o s k = (bySourceAndKind o s k).length
  placed : ∀ w, Picked (fun n => w.start ≤ n.start ∧ n.stop ≤ w.stop) (notes o) (within o w)
  descendants : ∀ (kind : Kind) (kinds : List Kind), kinds.Nodup → (∀ k, k ∈ kinds ↔ k.Descends kind) →
    countOfKind o kind true = (kinds.map (countOfKind o · false)).sum
  sources : ∀ sources : List Source, sources.Nodup → (∀ s, s ∈ sources) →
    (sources.map (countBySource o)).sum = (notes o).length
  generic : countOfKind o .generic true = (notes o).length

theorem answers (o : α) : Answers o where
  filtered _ := picked_filter (fun _ => Filter.accepts_exact) _
  counted _ := rfl
  sourced _ := ⟨rfl, rfl⟩
  kinded _ := ⟨rfl, rfl, fun _ => rfl⟩
  paired _ _ := ⟨rfl, rfl⟩
  placed _ := picked_filter (fun _ => Policy.enclosed_exact) _
  descendants _ _ := count_descendants o
  sources _ := count_sources o
  generic := count_generic o

end Overlay

namespace Snippet

-- What can become of a snippet: it is held against a limit, gets another sentence, or is kept as a selection and
-- viewed again in its document, however that may have changed.
inductive Grown (start : Snippet) : Snippet → Prop where
  | same : Grown start start
  | limited {s t : Snippet} {limit : Option Nat} (grown : Grown start s) (made : s.limited limit = .ok t) :
      Grown start t
  | added {s t : Snippet} {index : Nat} (grown : Grown start s) (made : s.addSentence index = .ok t) :
      Grown start t
  | viewed {s t : Snippet} {d : Document} (grown : Grown start s) (made : s.selection.view d = .ok t) :
      Grown start t

variable {s t : Snippet}

theorem Grown.span? (grown : s.Grown t) : t.span? = s.span? := by
  induction grown with
  | same => rfl
  | limited _ made ih => exact limited_same made ▸ ih
  | added _ made ih =>
    obtain ⟨_, _, same⟩ := bind_ok.mp made
    cases Except.ok.inj same
    exact ih
  | viewed _ made ih =>
    obtain ⟨_, rfl⟩ := Selection.view_exact.mp made
    exact ih

theorem notes_ranged (ranged : t.span? = some t.span) :
    Overlay.notes t = Overlay.within t.source t.span.window := by
  change t.notes = _
  rw [notes, ranged]
  rfl

theorem notes_rangeless (rangeless : t.span? = none) : Overlay.notes t = [] := by
  change t.notes = _
  rw [notes, rangeless]

theorem ofRange_ranged {d : Document} {start length : Nat} (made : ofRange d start length = .ok s) (grown : s.Grown t) :
    t.span? = some t.span := by
  obtain ⟨window, _, _, rfl⟩ := ofRange_parts made
  rw [span, grown.span?]
  rfl

end Snippet

-- Documents, lists of notes and snippets answer alike. What a snippet shows of its document's notes is told by its
-- range, and one that was listed sentence by sentence shows none.
theorem overlays_answer {α : Type} [Overlay α] (o : α) :
    Overlay.Answers o
      ∧ (∀ {d start length} {s t : Snippet}, Snippet.ofRange d start length = .ok s → s.Grown t →
        Overlay.notes t = Overlay.within t.source t.span.window)
      ∧ (∀ {d indices} {s t : Snippet}, Snippet.ofSentences d indices = .ok s → s.Grown t → Overlay.notes t = [])
      ∧ ∀ {σ : Type} {g : Generator σ} {d indices state next} {s t : Snippet},
        Snippet.shuffled g d indices state = .ok (some (s, next)) → s.Grown t → Overlay.notes t = [] := by
  refine ⟨Overlay.answers o, ?_, ?_, ?_⟩
  · intro d start length s t made grown
    exact Snippet.notes_ranged (Snippet.ofRange_ranged made grown)
  · intro d indices s t made grown
    obtain ⟨_, rfl⟩ := Snippet.ofSentences_exact.mp made
    exact Snippet.notes_rangeless grown.span?
  · intro σ g d indices state next s t made grown
    obtain ⟨_, order, _, rfl⟩ := Snippet.shuffled_parts made
    exact Snippet.notes_rangeless grown.span?

-- A line with notes of three kinds on it, two of them below one kind, seen through the range of its first word and
-- then again after another note has come.
def notedLine : Document :=
  ((((Document.empty ⟨1⟩).addInPlace (.ofTokens [.spanning "ab" (.clamped 0 2), .spanning "cd" (.clamped 3 2)])).addNote
    ((NoteBody.plain .mention .gold (.clamped 0 2)).named ⟨1⟩)).addNote
      ((NoteBody.plain .passage .pred (.clamped 0 9)).named ⟨2⟩)).addNote
        ((NoteBody.plain .namedEntity .gold (.clamped 3 2)).named ⟨3⟩)

def laterNote : Note := (NoteBody.plain .namedEntity .user (.clamped 0 5)).named ⟨4⟩

theorem notedLine_answers :
    (∀ k, k ∈ [Kind.mention, .namedEntity] ↔ k.Descends .mention) ∧ Overlay.countOfKind notedLine .mention true = 2
      ∧ Overlay.countOfKind notedLine .mention false = 1
      ∧ (Source.all.map (Overlay.countBySource notedLine)).sum = 3
      ∧ (∃ s t, Snippet.ofRange notedLine 0 2 = .ok s ∧ s.Grown t ∧ t.source = notedLine.addNote laterNote
        ∧ Overlay.notes t = Overlay.within t.source ⟨0, 5⟩ ∧ (Overlay.notes t).length = 3)
      ∧ (∃ s t, Snippet.ofSentences notedLine [0] = .ok s ∧ s.Grown t ∧ t.indices = [0, 0] ∧ Overlay.notes t = [])
      ∧ ∃ s next, Snippet.shuffled .congruential notedLine [0] 7 = .ok (some (s, next)) ∧ Overlay.notes s = [] := by
  obtain ⟨answers, ranged, listed, mixed⟩ := overlays_answer notedLine
  have below : ∀ k, k ∈ [Kind.mention, .namedEntity] ↔ k.Descends .mention := by
    intro k
    rw [← Kind.isA_exact]
    cases k <;> decide
  have first : Snippet.ofRange notedLine 0 2 = .ok ⟨notedLine, [0], some (.clamped 0 5)⟩ := rfl
  have viewed : (Snippet.mk notedLine [0] (some (.clamped 0 5))).selection.view (notedLine.addNote laterNote)
      = .ok ⟨notedLine.addNote laterNote, [0], some (.clamped 0 5)⟩ := rfl
  have seen := Snippet.Grown.viewed .same viewed
  have lone : Snippet.ofSentences notedLine [0] = .ok ⟨notedLine, [0], none⟩ := rfl
  have added : (Snippet.mk notedLine [0] none).addSentence 0 = .ok ⟨notedLine, [0, 0], none⟩ := rfl
  have twice := Snippet.Grown.added .same added
  have drawn : Snippet.shuffled .congruential notedLine [0] 7 = .ok (some (⟨notedLine, [0], none⟩, 7)) := rfl
  exact ⟨below, answers.descendants .mention _ (by decide) below, by decide,
    answers.sources Source.all (by decide) (fun s => by cases s <;> decide),
    ⟨_, _, first, seen, rfl, ranged first seen, rfl⟩, ⟨_, _, lone, twice, rfl, listed lone twice⟩,
    _, _, drawn, mixed drawn .same⟩

end Marginalia
