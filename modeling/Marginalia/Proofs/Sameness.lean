import Marginalia.Proofs.Lookups
import Marginalia.Proofs.Selections
import Mathlib.Data.List.Forall2

namespace Marginalia

-- A comparison that can be turned round and handed on. Nothing has to equal itself.
structure Compares {α : Type} (r : α → α → Bool) : Prop where
  symm {a b : α} (same : r a b = true) : r b a = true
  trans {a b c : α} (first : r a b = true) (second : r b c = true) : r a c = true

-- Two outcomes that are both refused for one reason, or both given and alike.
inductive Matched {ε α : Type} (r : α → α → Bool) : Except ε α → Except ε α → Prop where
  | error (fault : ε) : Matched r (.error fault) (.error fault)
  | ok {a b : α} (same : r a b = true) : Matched r (.ok a) (.ok b)

section Pairs

variable {α β : Type} {R : α → α → Prop} {a b c : List α}

theorem forall₂_trans (handed : ∀ {x y z}, R x y → R y z → R x z) (first : List.Forall₂ R a b)
    (second : List.Forall₂ R b c) : List.Forall₂ R a c := by
  induction first generalizing c with
  | nil => exact second
  | cons here _ ih =>
    cases second with
    | cons there rest => exact .cons (handed here there) (ih rest)

-- What paired items agree on, the lists agree on place by place.
theorem forall₂_map {part : α → β} (paired : List.Forall₂ R a b) (parts : ∀ x y, R x y → part x = part y) :
    a.map part = b.map part := by
  induction paired with
  | nil => rfl
  | cons here _ ih => rw [List.map_cons, List.map_cons, parts _ _ here, ih]

theorem forall₂_getElem? (paired : List.Forall₂ R a b) (index : Nat) : Option.Rel R a[index]? b[index]? := by
  induction paired generalizing index with
  | nil => exact .none
  | cons here _ ih =>
    cases index with
    | zero => exact .some here
    | succ index => exact ih index

theorem forall₂_find? {p : α → Bool} (paired : List.Forall₂ R a b) (asked : ∀ x y, R x y → p x = p y) :
    Option.Rel R (a.find? p) (b.find? p) := by
  induction paired with
  | nil => exact .none
  | @cons x y _ _ here _ ih =>
    rw [List.find?_cons, List.find?_cons, ← asked x y here]
    cases p x with
    | true => exact .some here
    | false => exact ih

theorem forall₂_findIdx? {p : α → Bool} (paired : List.Forall₂ R a b) (asked : ∀ x y, R x y → p x = p y) :
    a.findIdx? p = b.findIdx? p := by
  induction paired with
  | nil => rfl
  | cons here _ ih => rw [List.findIdx?_cons, List.findIdx?_cons, asked _ _ here, ih]

theorem forall₂_isEmpty (paired : List.Forall₂ R a b) : a.isEmpty = b.isEmpty := by
  cases paired <;> rfl

theorem forall₂_select {place : α → Span} (paired : List.Forall₂ R a b)
    (placed : ∀ x y, R x y → place x = place y) (p : Policy) (w : Window) :
    List.Forall₂ R (p.select w place a) (p.select w place b) :=
  List.rel_filter (fun x y here => by dsimp only; rw [placed x y here]) paired

end Pairs

section Lists

variable {α : Type} {r : α → α → Bool} {a b : List α}

theorem isEqv_exact : a.isEqv b r = true ↔ List.Forall₂ (fun x y => r x y = true) a b := by
  induction a generalizing b with
  | nil => cases b <;> simp [List.isEqv]
  | cons x rest ih => cases b <;> simp [List.isEqv, ih]

theorem isEqv_self : a.isEqv a r = true ↔ ∀ x ∈ a, r x x = true := isEqv_exact.trans List.forall₂_same

end Lists

namespace Compares

variable {α β : Type} {r t : α → α → Bool}

theorem part [BEq β] [LawfulBEq β] (part : α → β) : Compares fun a b => part a == part b where
  symm same := beq_iff_eq.mpr (beq_iff_eq.mp same).symm
  trans first second := beq_iff_eq.mpr ((beq_iff_eq.mp first).trans (beq_iff_eq.mp second))

theorem on (compares : Compares r) (part : β → α) : Compares fun a b => r (part a) (part b) :=
  ⟨compares.symm, compares.trans⟩

theorem both (first : Compares r) (second : Compares t) : Compares fun a b => r a b && t a b where
  symm same := by
    obtain ⟨left, right⟩ := Bool.and_eq_true_iff.mp same
    exact Bool.and_eq_true_iff.mpr ⟨first.symm left, second.symm right⟩
  trans here there := by
    obtain ⟨left, right⟩ := Bool.and_eq_true_iff.mp here
    obtain ⟨left_on, right_on⟩ := Bool.and_eq_true_iff.mp there
    exact Bool.and_eq_true_iff.mpr ⟨first.trans left left_on, second.trans right right_on⟩

theorem lists (compares : Compares r) : Compares fun a b : List α => a.isEqv b r where
  symm same := isEqv_exact.mpr ((isEqv_exact.mp same).imp fun _ _ => compares.symm).flip
  trans first second :=
    isEqv_exact.mpr (forall₂_trans compares.trans (isEqv_exact.mp first) (isEqv_exact.mp second))

end Compares

namespace Binary

variable {f : Format}

-- The number as a signed word. The two zeros are one word.
def signed? : Binary f → Option Int
  | .nan => none
  | .number negative word => some (if negative then -(word.val : Int) else word.val)

theorem same_exact {x y : Binary f} :
    x.same y = true ↔ ∃ value, x.signed? = some value ∧ y.signed? = some value := by
  cases x with
  | nan => simp [same_nan_left, signed?]
  | number s a =>
    cases y with
    | nan => simp [same_nan_right, signed?]
    | number t b =>
      have words : a = b ↔ a.val = b.val := Fin.ext_iff
      simp only [same, signed?, Bool.or_eq_true, Bool.and_eq_true, beq_iff_eq, words, Option.some.injEq,
        exists_eq_left']
      cases s <;> cases t <;>
        simp only [Bool.false_eq_true, reduceIte, reduceCtorEq, true_and, false_and, false_or] <;> omega

theorem same_compares : Compares (Binary.same (f := f)) where
  symm same := by
    obtain ⟨value, left, right⟩ := same_exact.mp same
    exact same_exact.mpr ⟨value, right, left⟩
  trans first second := by
    obtain ⟨value, left, middle⟩ := same_exact.mp first
    obtain ⟨other, middle_too, right⟩ := same_exact.mp second
    cases middle.symm.trans middle_too
    exact same_exact.mpr ⟨value, left, right⟩

end Binary

namespace Attachment

-- A vector and a label never equal each other, so only three of a kind are left to compare.
theorem same_compares : Compares Attachment.same where
  symm {a b} same := match a, b, same with
    | .vector _, .vector _, same => Binary.same_compares.lists.symm same
    | .tag _, .tag _, same => (Compares.part id).symm same
  trans {a b c} first second := match a, b, c, first, second with
    | .vector _, .vector _, .vector _, first, second => Binary.same_compares.lists.trans first second
    | .tag _, .tag _, .tag _, first, second => (Compares.part id).trans first second

theorem same_self {a : Attachment} :
    a.same a = true ↔ ∀ entries, a = .vector entries → ∀ x ∈ entries, x.isNaN = false := by
  cases a with
  | vector entries => simp [same, isEqv_self, Binary.same_self]
  | tag label => simp [same]

end Attachment

namespace Token

theorem same_compares : Compares Token.same :=
  ((Compares.part text).both (Compares.part span)).both
    (((Compares.part Prod.fst).both (Attachment.same_compares.on Prod.snd)).lists.on fun t : Token =>
      t.attachments.entries)

theorem same_parts {t u : Token} (same : t.same u = true) : t.text = u.text ∧ t.span = u.span := by
  simp only [Token.same, Bool.and_eq_true, beq_iff_eq] at same
  exact same.1

-- Every entry of every vector on the token is a number.
def Numbered (t : Token) : Prop :=
  ∀ key entries, t.attachment? key = some (.vector entries) → ∀ x ∈ entries, x.isNaN = false

theorem same_self {t : Token} : t.same t = true ↔ t.Numbered := by
  simp only [Token.same, beq_self_eq_true, Bool.true_and, isEqv_self, Attachment.same_self]
  constructor
  · intro numbers key entries found
    exact numbers (key, .vector entries) (Keyed.find?_exact.mp found) entries rfl
  · rintro numbered ⟨key, attachment⟩ listed entries rfl
    exact numbered key entries (Keyed.find?_exact.mpr listed)

end Token

namespace Sentence

theorem same_compares : Compares Sentence.same :=
  (Compares.part span).both (Token.same_compares.lists.on tokens)

theorem same_parts {s u : Sentence} (same : s.same u = true) :
    s.span = u.span ∧ List.Forall₂ (fun t v => t.same v = true) s.tokens u.tokens := by
  obtain ⟨spans, tokens⟩ := Bool.and_eq_true_iff.mp same
  exact ⟨beq_iff_eq.mp spans, isEqv_exact.mp tokens⟩

theorem same_self {s : Sentence} : s.same s = true ↔ ∀ t ∈ s.tokens, t.Numbered := by
  simp only [Sentence.same, beq_self_eq_true, Bool.true_and, isEqv_self, Token.same_self]

end Sentence

namespace Note

theorem same_compares : Compares Note.same :=
  (((((Compares.part NoteBody.span).both (Compares.part NoteBody.kind)).both (Compares.part NoteBody.source)).both
    (Binary.same_compares.on NoteBody.confidence)).both (Compares.part NoteBody.label)).on toNoteBody

theorem same_span {m n : Note} (same : m.same n = true) : m.span = n.span := by
  simp only [Note.same, NoteBody.same, Bool.and_eq_true, beq_iff_eq] at same
  exact same.1.1.1.1

theorem same_self {n : Note} : n.same n = true ↔ n.confidence.isNaN = false := by
  simp [Note.same, NoteBody.same, Binary.same_self]

end Note

-- The layout takes a token's text and range and nothing else.
theorem Layout.chars_same (cursor : Nat) {a b : List Token} (same : List.Forall₂ (fun t u => t.same u = true) a b) :
    chars cursor a = chars cursor b := by
  induction same generalizing cursor with
  | nil => rfl
  | @cons t u _ _ here _ ih =>
    obtain ⟨text, span⟩ := Token.same_parts here
    have blank : t.isEmpty = u.isEmpty := congrArg Span.isEmpty span
    have start : t.start = u.start := congrArg Span.start span
    have stop : t.stop = u.stop := congrArg Span.stop span
    have room : t.length = u.length := congrArg Span.length span
    rw [chars, chars, blank, start, stop, room, text, ih, ih]

namespace Document

theorem same_compares : Compares Document.same :=
  (((((Compares.part span).both (Compares.part fun d : Document => d.metadata.language)).both
    (Compares.part fun d : Document => d.metadata.docType)).both (Sentence.same_compares.lists.on sentences)).both
    (Note.same_compares.lists.on notes)).both (Compares.part tags)

-- Every confidence of a note, and every entry of a vector on a token, is a number.
structure Numbered (d : Document) : Prop where
  notes : ∀ n ∈ d.notes, n.confidence.isNaN = false
  tokens : ∀ t ∈ d.tokens, t.Numbered

theorem same_self {d : Document} : d.same d = true ↔ d.Numbered := by
  simp only [Document.same, beq_self_eq_true, Bool.true_and, Bool.and_true, Bool.and_eq_true, isEqv_self,
    Sentence.same_self, Note.same_self]
  constructor
  · rintro ⟨tokens, notes⟩
    refine ⟨notes, fun t member => ?_⟩
    obtain ⟨s, held, inside⟩ := List.mem_flatMap.mp member
    exact tokens s held t inside
  · rintro ⟨notes, tokens⟩
    exact ⟨fun s held t inside => tokens t (List.mem_flatMap.mpr ⟨s, held, inside⟩), notes⟩

-- What equal documents agree on. The sentences, tokens and notes that are found are equal in turn.
structure ReadsAs (d e : Document) : Prop where
  text : d.text = e.text
  textAt : ∀ s, d.textAt s = e.textAt s
  sentence : ∀ index, Matched Sentence.same (d.sentence index) (e.sentence index)
  sentenceAt : ∀ position,
    Option.Rel (fun s u => s.same u = true) (d.sentenceAt? position) (e.sentenceAt? position)
  sentenceIndexAt : ∀ position, d.sentenceIndexAt? position = e.sentenceIndexAt? position
  token : ∀ index, Option.Rel (fun t u => t.same u = true) (d.token? index) (e.token? index)
  sentencesIn : ∀ w p, (d.sentencesIn w p).isEqv (e.sentencesIn w p) Sentence.same = true
  tokensIn : ∀ w p, (d.tokensIn w p).isEqv (e.tokensIn w p) Token.same = true
  notesIn : ∀ w, (Overlay.within d w).isEqv (Overlay.within e w) Note.same = true
  hasTag : ∀ source tag, d.hasTag source tag = e.hasTag source tag

-- The parts of the comparison that are read.
structure Parts (d e : Document) : Prop where
  span : d.span = e.span
  sentences : List.Forall₂ (fun s u => s.same u = true) d.sentences e.sentences
  notes : List.Forall₂ (fun m n => m.same n = true) d.notes e.notes
  tags : d.tags = e.tags

namespace Parts

variable {d e : Document}

theorem of_same (same : d.same e = true) : Parts d e := by
  simp only [Document.same, Bool.and_eq_true, beq_iff_eq, isEqv_exact] at same
  obtain ⟨⟨⟨⟨⟨span, _⟩, _⟩, sentences⟩, notes⟩, tags⟩ := same
  exact ⟨span, sentences, notes, tags⟩

theorem tokens (parts : Parts d e) : List.Forall₂ (fun t u => t.same u = true) d.tokens e.tokens :=
  List.rel_flatMap parts.sentences fun _ _ same => (Sentence.same_parts same).2

theorem chars (parts : Parts d e) : d.chars = e.chars := by
  have blank : d.isEmpty = e.isEmpty := forall₂_isEmpty parts.tokens
  have apart : d.sentences.map (fun s => Layout.chars s.start s.tokens)
      = e.sentences.map fun s => Layout.chars s.start s.tokens :=
    forall₂_map parts.sentences fun s u same => by
      obtain ⟨span, tokens⟩ := Sentence.same_parts same
      rw [Sentence.start, Sentence.start, span, Layout.chars_same _ tokens]
  rw [Document.chars, Document.chars, blank, apart, Layout.chars_same _ parts.tokens, start, start, parts.span]

theorem sentenceIndexAt (parts : Parts d e) (position : Nat) :
    d.sentenceIndexAt? position = e.sentenceIndexAt? position := by
  have later : d.sentences.findIdx? (fun s => position < s.start)
      = e.sentences.findIdx? fun s => position < s.start :=
    forall₂_findIdx? parts.sentences fun s u same => by
      rw [Sentence.start, Sentence.start, (Sentence.same_parts same).1]
  rw [sentenceIndexAt?, sentenceIndexAt?, later, forall₂_isEmpty parts.sentences, parts.sentences.length_eq]

theorem sentence (parts : Parts d e) (index : Nat) :
    Matched Sentence.same (d.sentence index) (e.sentence index) := by
  have there := forall₂_getElem? parts.sentences index
  unfold Document.sentence
  rw [parts.sentences.length_eq]
  generalize d.sentences[index]? = s at there ⊢
  generalize e.sentences[index]? = u at there ⊢
  cases there with
  | none => exact .error _
  | some same => exact .ok same

theorem reads (parts : Parts d e) : d.ReadsAs e where
  text := congrArg String.ofList parts.chars
  textAt s := by rw [textAt, textAt, parts.chars, start, start, parts.span]
  sentence := parts.sentence
  sentenceAt position := forall₂_find? parts.sentences fun s u same => by rw [(Sentence.same_parts same).1]
  sentenceIndexAt := parts.sentenceIndexAt
  token := forall₂_getElem? parts.tokens
  sentencesIn w p :=
    isEqv_exact.mpr (forall₂_select parts.sentences (fun _ _ same => (Sentence.same_parts same).1) p w)
  tokensIn w p := isEqv_exact.mpr (forall₂_select parts.tokens (fun _ _ same => (Token.same_parts same).2) p w)
  notesIn w := isEqv_exact.mpr (forall₂_select parts.notes (fun _ _ same => Note.same_span same) .enclosed w)
  hasTag source tag := by rw [hasTag, hasTag, parts.tags]

end Parts

end Document

namespace Hit

variable {a b c : Hit}

theorem agrees_exact : a.agrees b = true
    ↔ (a.document.handle = b.document.handle ∨ a.document.same b.document = true)
      ∧ a.note.span = b.note.span ∧ a.note.kind = b.note.kind := by
  simp only [agrees, Note.agrees, NoteBody.agrees, Bool.and_eq_true, Bool.or_eq_true, beq_iff_eq]

theorem agrees_self (a : Hit) : a.agrees a = true := agrees_exact.mpr ⟨.inl rfl, rfl, rfl⟩

theorem agrees_symm (agrees : a.agrees b = true) : b.agrees a = true := by
  obtain ⟨documents, span, kind⟩ := agrees_exact.mp agrees
  exact agrees_exact.mpr ⟨documents.imp Eq.symm Document.same_compares.symm, span.symm, kind.symm⟩

-- A name passes the comparison of values on because it stands for one document.
theorem agrees_trans {documents : List Document} (distinct : (documents.map Document.handle).Nodup)
    (a_held : a.document ∈ documents) (b_held : b.document ∈ documents) (c_held : c.document ∈ documents)
    (first : a.agrees b = true) (second : b.agrees c = true) : a.agrees c = true := by
  obtain ⟨here, span, kind⟩ := agrees_exact.mp first
  obtain ⟨there, next_span, next_kind⟩ := agrees_exact.mp second
  refine agrees_exact.mpr ⟨?_, span.trans next_span, kind.trans next_kind⟩
  rcases here with named | equal
  · have one := List.inj_on_of_nodup_map distinct a_held b_held named
    rwa [one]
  · rcases there with named | again
    · have one := List.inj_on_of_nodup_map distinct b_held c_held named
      exact .inr (one ▸ equal)
    · exact .inr (Document.same_compares.trans equal again)

theorem agrees_equivalence {documents : List Document} (distinct : (documents.map Document.handle).Nodup) :
    Equivalence fun a b : { h : Hit // h.document ∈ documents } => a.val.agrees b.val = true where
  refl a := agrees_self a.val
  symm := agrees_symm
  trans {a b c} := agrees_trans distinct a.property b.property c.property

-- Hits agree on one document, by name or by value, and on one range and kind. That is an equivalence wherever
-- a name stands for one document, as after every run, whatever is no number in these documents. Equality of
-- documents lacks only that each equals itself, which those do that hold numbers throughout; and equal
-- documents read the same.
theorem equalities_lawful :
    (∀ a b : Hit, a.agrees b = true
        ↔ (a.document.handle = b.document.handle ∨ a.document.same b.document = true)
          ∧ a.note.span = b.note.span ∧ a.note.kind = b.note.kind)
      ∧ (∀ documents : List Document, (documents.map Document.handle).Nodup →
        Equivalence fun a b : { h : Hit // h.document ∈ documents } => a.val.agrees b.val = true)
      ∧ (∀ replaced w, Desk.Run replaced w →
        Equivalence fun a b : { h : Hit // h.document ∈ w.documents } => a.val.agrees b.val = true)
      ∧ (∀ d e : Document, d.same e = true → e.same d = true)
      ∧ (∀ d e f : Document, d.same e = true → e.same f = true → d.same f = true)
      ∧ (∀ d : Document, d.same d = true ↔ d.Numbered)
      ∧ ∀ d e : Document, d.same e = true → d.ReadsAs e :=
  ⟨fun _ _ => agrees_exact, fun _ => agrees_equivalence, fun _ _ run => agrees_equivalence run.sound.distinct,
    fun _ _ => Document.same_compares.symm, fun _ _ _ => Document.same_compares.trans,
    fun _ => Document.same_self, fun _ _ same => (Document.Parts.of_same same).reads⟩

-- Two documents that differ in the sign of a zero, and one with a note of no relevance.
def zeroed (handle : Handle) (negative : Bool) : Document :=
  (Document.empty handle).addInPlace
    (.ofTokens [(Token.starting "ab" 0).attach "v" (.vector [.number negative 0, .one .single])])

def spot : Note := (NoteBody.plain .mention .gold (.clamped 0 2)).named ⟨1⟩

def doubt : Note := spot.withConfidence .nan

def doubted : Document := (Document.empty ⟨3⟩).addNote doubt

theorem zeroed_agrees : ∃ w : Desk, Desk.Run [] w ∧ w.documents = [doubted, zeroed ⟨2⟩ true, zeroed ⟨1⟩ false]
    ∧ doubted.same doubted = false ∧ agrees ⟨doubted, doubt⟩ ⟨doubted, doubt⟩ = true
    ∧ agrees ⟨zeroed ⟨1⟩ false, spot⟩ ⟨zeroed ⟨2⟩ true, doubt⟩ = true
    ∧ zeroed ⟨1⟩ false ≠ zeroed ⟨2⟩ true ∧ (zeroed ⟨1⟩ false).same (zeroed ⟨1⟩ false) = true
    ∧ (zeroed ⟨1⟩ false).text = (zeroed ⟨2⟩ true).text := by
  have first : Desk.Run [] ⟨⟨2, 1⟩, [Document.empty ⟨1⟩], []⟩ := .step (.start .initial) (.opened .fresh)
  have positive : Desk.Run [] ⟨⟨2, 1⟩, [zeroed ⟨1⟩ false], []⟩ := .step first (.changed (.refl _) (.addInPlace _))
  have second : Desk.Run [] ⟨⟨3, 1⟩, [Document.empty ⟨2⟩, zeroed ⟨1⟩ false], []⟩ := .step positive (.opened .fresh)
  have negative : Desk.Run [] ⟨⟨3, 1⟩, [zeroed ⟨2⟩ true, zeroed ⟨1⟩ false], []⟩ :=
    .step second (.changed (.refl _) (.addInPlace _))
  have third : Desk.Run [] ⟨⟨4, 1⟩, [Document.empty ⟨3⟩, zeroed ⟨2⟩ true, zeroed ⟨1⟩ false], []⟩ :=
    .step negative (.opened .fresh)
  let w : Desk := ⟨⟨4, 1⟩, [doubted, zeroed ⟨2⟩ true, zeroed ⟨1⟩ false], []⟩
  have run : Desk.Run [] w := .step third (.changed (.refl _) (.noted doubt))
  obtain ⟨_, _, agreement, turned, handed, itself, reading⟩ := equalities_lawful
  have equivalence := agreement [] w run
  have equal : (zeroed ⟨1⟩ false).same (zeroed ⟨2⟩ true) = true := by decide
  have unlike : zeroed ⟨1⟩ false ≠ zeroed ⟨2⟩ true := fun same => absurd (congrArg Document.handle same) (by decide)
  have undone : ¬doubted.Numbered := fun numbered =>
    absurd (numbered.notes _ (List.mem_singleton.mpr rfl)) (by decide)
  let plus : { h : Hit // h.document ∈ w.documents } := ⟨⟨zeroed ⟨1⟩ false, spot⟩, by simp [w]⟩
  let minus : { h : Hit // h.document ∈ w.documents } := ⟨⟨zeroed ⟨2⟩ true, spot⟩, by simp [w]⟩
  let unsure : { h : Hit // h.document ∈ w.documents } := ⟨⟨zeroed ⟨2⟩ true, doubt⟩, by simp [w]⟩
  let spoilt : { h : Hit // h.document ∈ w.documents } := ⟨⟨doubted, doubt⟩, by simp [w]⟩
  have by_value : plus.val.agrees minus.val = true := by decide
  have by_name : minus.val.agrees unsure.val = true := by decide
  exact ⟨w, run, rfl, Bool.eq_false_iff.mpr fun same => undone ((itself doubted).mp same), equivalence.refl spoilt,
    equivalence.trans by_value by_name, unlike, handed _ _ _ equal (turned _ _ equal), (reading _ _ equal).text⟩

end Hit

end Marginalia
