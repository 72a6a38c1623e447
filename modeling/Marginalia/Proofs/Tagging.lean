import Marginalia.Proofs.Regrouping
import Marginalia.Proofs.Sameness

namespace Marginalia

namespace Document

-- The table has an entry for the source, whether or not a tag is left in it.
def Lists (d : Document) (source : Source) : Prop := ∃ tags, d.tags.find? source = some tags

-- No entry without a tag.
def Filled (d : Document) : Prop := ∀ source, d.Lists source → ∃ tag, d.hasTag source tag = true

variable {d e : Document}

theorem hasTag_exact {source : Source} {tag : String} :
    d.hasTag source tag = true ↔ ∃ tags, d.tags.find? source = some tags ∧ tags.has tag = true := by
  rw [hasTag, Option.any_eq_true]

-- What can be asked of a table of tags, and which sources it lists, make it up.
theorem tags_exact : d.tags = e.tags ↔
    (∀ source tag, d.hasTag source tag = e.hasTag source tag) ∧ ∀ source, d.Lists source ↔ e.Lists source := by
  constructor
  · intro same
    exact ⟨fun source tag => by rw [hasTag, hasTag, same], fun source => by rw [Lists, Lists, same]⟩
  · rintro ⟨tags, listed⟩
    apply Keyed.same_lookups
    intro source
    have asked := tags source
    have there := listed source
    unfold hasTag at asked
    unfold Lists at there
    cases left : d.tags.find? source with
    | none =>
      cases right : e.tags.find? source with
      | none => rfl
      | some others => simp [left, right] at there
    | some held =>
      cases right : e.tags.find? source with
      | none => simp [left, right] at there
      | some others =>
        refine congrArg some (Members.same_members fun tag => ?_)
        have answer := asked tag
        simp only [left, right, Option.any_some] at answer
        rw [answer]

theorem listed_of_tag {source : Source} {tag : String} (available : d.hasTag source tag = true) : d.Lists source := by
  obtain ⟨tags, found, _⟩ := hasTag_exact.mp available
  exact ⟨tags, found⟩

-- Without empty entries the listed sources are those with a tag.
theorem tags_filled (filled : d.Filled) (other : e.Filled) :
    d.tags = e.tags ↔ ∀ source tag, d.hasTag source tag = e.hasTag source tag := by
  refine tags_exact.trans ⟨fun same => same.1, fun tags => ⟨tags, fun source => ⟨?_, ?_⟩⟩⟩
  · intro listed
    obtain ⟨tag, available⟩ := filled source listed
    exact listed_of_tag (tags source tag ▸ available)
  · intro listed
    obtain ⟨tag, available⟩ := other source listed
    exact listed_of_tag ((tags source tag).trans available)

-- What a setting does to the entries.
theorem find?_setTag (d : Document) (source : Source) (tag : String) (present : Bool) (other : Source) :
    (d.setTag source tag present).tags.find? other =
      if other = source then
        if present then some (((d.tags.find? source).getD .empty).add tag)
        else (d.tags.find? source).map (·.drop tag)
      else d.tags.find? other := by
  unfold setTag
  by_cases same : other = source
  · subst same
    cases found : d.tags.find? other <;> cases present <;> simp [found, Keyed.find?_insert_same]
  · cases found : d.tags.find? source <;> cases present <;> simp [same, Keyed.find?_insert_other]

theorem hasTag_setTag (d : Document) (source : Source) (tag : String) (present : Bool) (other : Source) (name : String) :
    (d.setTag source tag present).hasTag other name =
      if other = source ∧ name = tag then present else d.hasTag other name := by
  rw [Bool.eq_iff_iff, hasTag_exact, find?_setTag]
  by_cases same : other = source
  · subst same
    cases present with
    | true =>
      have held : ((d.tags.find? other).getD .empty).has name = true ↔ d.hasTag other name = true := by
        rw [hasTag]
        cases d.tags.find? other <;> rfl
      by_cases named : name = tag <;> simp [Members.has_add, held, named]
    | false =>
      rw [hasTag]
      cases found : d.tags.find? other <;> by_cases named : name = tag <;> simp [Members.has_drop, named]
  · simp [same, hasTag_exact]

theorem lists_setTag {source other : Source} {tag : String} {present : Bool} :
    (d.setTag source tag present).Lists other ↔ d.Lists other ∨ source = other ∧ present = true := by
  rw [Lists, Lists, find?_setTag]
  by_cases same : other = source
  · subst same
    cases present <;> cases d.tags.find? other <;> simp
  · simp [same, Ne.symm same]

theorem hasTag_append (d other : Document) (source : Source) (tag : String) :
    (d.append other).hasTag source tag = (d.hasTag source tag || other.hasTag source tag) := by
  rw [Bool.eq_iff_iff, Bool.or_eq_true, hasTag, hasTag, hasTag, append, find?_mergeTags]
  cases d.tags.find? source <;> cases other.tags.find? source <;>
    simp [bothTags, Members.has_union]

theorem lists_append {other : Document} {source : Source} :
    (d.append other).Lists source ↔ d.Lists source ∨ other.Lists source := by
  rw [Lists, Lists, Lists, append, find?_mergeTags]
  cases d.tags.find? source <;> cases other.tags.find? source <;> simp [bothTags]

theorem setTag_filled (filled : d.Filled) (source : Source) (tag : String) : (d.setTag source tag true).Filled := by
  intro other listed
  rcases lists_setTag.mp listed with old | ⟨rfl, _⟩
  · obtain ⟨name, available⟩ := filled other old
    exact ⟨name, by rw [hasTag_setTag, available, ite_self]⟩
  · exact ⟨tag, by rw [hasTag_setTag, if_pos ⟨rfl, rfl⟩]⟩

theorem append_filled (filled : d.Filled) {other : Document} (brought : other.Filled) : (d.append other).Filled := by
  intro source listed
  rcases lists_append.mp listed with old | new
  · obtain ⟨tag, available⟩ := filled source old
    exact ⟨tag, by rw [hasTag_append, available, Bool.true_or]⟩
  · obtain ⟨tag, available⟩ := brought source new
    exact ⟨tag, by rw [hasTag_append, available, Bool.or_true]⟩

-- Alike in all that is compared but the tags.
structure SameBesideTags (d e : Document) : Prop where
  span : d.span = e.span
  language : d.metadata.language = e.metadata.language
  docType : d.metadata.docType = e.metadata.docType
  sentences : d.sentences.isEqv e.sentences Sentence.same = true
  notes : d.notes.isEqv e.notes Note.same = true

theorem same_parted : d.same e = true ↔ d.SameBesideTags e ∧ d.tags = e.tags := by
  simp only [Document.same, Bool.and_eq_true, beq_iff_eq]
  constructor
  · rintro ⟨⟨⟨⟨⟨span, language⟩, docType⟩, sentences⟩, notes⟩, tags⟩
    exact ⟨⟨span, language, docType, sentences, notes⟩, tags⟩
  · rintro ⟨⟨span, language, docType, sentences, notes⟩, tags⟩
    exact ⟨⟨⟨⟨⟨span, language⟩, docType⟩, sentences⟩, notes⟩, tags⟩

theorem setTag_besides (d : Document) (source : Source) (tag : String) (present : Bool) :
    ∃ tags, d.setTag source tag present = { d with tags } := by
  unfold setTag
  split <;> exact ⟨_, rfl⟩

-- Set and taken back, a tag leaves its source in the table.
theorem setTag_back (numbered : d.Numbered) {source : Source} {tag : String} (absent : d.hasTag source tag = false) :
    ((d.setTag source tag true).setTag source tag false).same d = true ↔ d.Lists source := by
  obtain ⟨tags, first⟩ := d.setTag_besides source tag true
  obtain ⟨later, second⟩ := (d.setTag source tag true).setTag_besides source tag false
  have beside : ((d.setTag source tag true).setTag source tag false).SameBesideTags d := by
    obtain ⟨⟨span, language, docType, sentences, notes⟩, _⟩ := same_parted.mp (same_self.mpr numbered)
    rw [second, first]
    exact ⟨span, language, docType, sentences, notes⟩
  have answers : ∀ other name, ((d.setTag source tag true).setTag source tag false).hasTag other name
      = d.hasTag other name := by
    intro other name
    rw [hasTag_setTag, hasTag_setTag]
    split
    · rename_i same
      rw [same.1, same.2, absent]
    · rfl
  rw [same_parted, and_iff_right beside, tags_exact, and_iff_right answers]
  simp [lists_setTag]

end Document

-- What changes a table of tags: a tag is set or taken back, or another document is appended.
inductive TagEdit where
  | set (source : Source) (tag : String) (present : Bool)
  | append (other : Document)

namespace TagEdit

open Document

def apply (d : Document) : TagEdit → Document
  | .set source tag present => d.setTag source tag present
  | .append other => d.append other

def applyAll (edits : List TagEdit) (d : Document) : Document := edits.foldl apply d

-- An edit that brings a source into the table. To take a tag back never does.
def Lists (source : Source) : TagEdit → Prop
  | .set s _ present => s = source ∧ present = true
  | .append other => other.Lists source

-- Whether a tag is there after an edit, told by whether it was there before.
def answer (source : Source) (tag : String) (before : Bool) : TagEdit → Bool
  | .set s name present => if source = s ∧ tag = name then present else before
  | .append other => before || other.hasTag source tag

-- An edit that takes nothing back and brings no empty entry.
def Adds : TagEdit → Prop
  | .set _ _ present => present = true
  | .append other => other.Filled

theorem apply_hasTag (edit : TagEdit) (d : Document) (source : Source) (tag : String) :
    (edit.apply d).hasTag source tag = edit.answer source tag (d.hasTag source tag) := by
  cases edit with
  | set s name present => exact d.hasTag_setTag s name present source tag
  | append other => exact d.hasTag_append other source tag

theorem apply_lists (edit : TagEdit) (d : Document) (source : Source) :
    (edit.apply d).Lists source ↔ d.Lists source ∨ edit.Lists source := by
  cases edit with
  | set s name present => exact lists_setTag
  | append other => exact lists_append

theorem apply_filled {edit : TagEdit} (adds : edit.Adds) {d : Document} (filled : d.Filled) : (edit.apply d).Filled := by
  cases edit with
  | set s name present =>
    obtain rfl : present = true := adds
    exact setTag_filled filled s name
  | append other => exact append_filled filled adds

theorem applyAll_hasTag (edits : List TagEdit) (d : Document) (source : Source) (tag : String) :
    (applyAll edits d).hasTag source tag = edits.foldl (answer source tag) (d.hasTag source tag) := by
  induction edits generalizing d with
  | nil => rfl
  | cons edit rest ih =>
    rw [List.foldl_cons, ← edit.apply_hasTag]
    exact ih (edit.apply d)

theorem applyAll_lists (edits : List TagEdit) (d : Document) (source : Source) :
    (applyAll edits d).Lists source ↔ d.Lists source ∨ ∃ edit ∈ edits, edit.Lists source := by
  induction edits generalizing d with
  | nil => simp [applyAll]
  | cons edit rest ih =>
    simp only [List.mem_cons, exists_eq_or_imp]
    rw [← or_assoc, ← edit.apply_lists]
    exact ih (edit.apply d)

theorem applyAll_filled {edits : List TagEdit} (adds : ∀ edit ∈ edits, edit.Adds) {d : Document} (filled : d.Filled) :
    (applyAll edits d).Filled := by
  induction edits generalizing d with
  | nil => exact filled
  | cons edit rest ih =>
    obtain ⟨first, others⟩ := List.forall_mem_cons.mp adds
    exact ih others (apply_filled first filled)

end TagEdit

namespace Document

open TagEdit

-- Whatever was set, taken back and merged, documents that are alike beside their tags are equal exactly if the same
-- tags are there and the same sources were ever brought in. Without a source that lost its last tag the tags decide
-- alone, and a tag that is set and taken back is forgotten only where its source was listed before.
theorem tagged_same {d e : Document} {first second : List TagEdit}
    (beside : (applyAll first d).SameBesideTags (applyAll second e)) :
    ((applyAll first d).same (applyAll second e) = true ↔
        (∀ source tag, (applyAll first d).hasTag source tag = (applyAll second e).hasTag source tag)
          ∧ ∀ source, (d.Lists source ∨ ∃ edit ∈ first, edit.Lists source)
            ↔ e.Lists source ∨ ∃ edit ∈ second, edit.Lists source)
      ∧ (∀ source tag, (applyAll first d).hasTag source tag = first.foldl (answer source tag) (d.hasTag source tag))
      ∧ ((applyAll first d).Filled → (applyAll second e).Filled →
        ((applyAll first d).same (applyAll second e) = true ↔
          ∀ source tag, (applyAll first d).hasTag source tag = (applyAll second e).hasTag source tag))
      ∧ (d.Filled → (∀ edit ∈ first, edit.Adds) → (applyAll first d).Filled)
      ∧ ∀ source tag, (applyAll first d).Numbered → (applyAll first d).hasTag source tag = false →
        ((((applyAll first d).setTag source tag true).setTag source tag false).same (applyAll first d) = true
          ↔ d.Lists source ∨ ∃ edit ∈ first, edit.Lists source) := by
  refine ⟨?_, applyAll_hasTag first d, ?_, fun filled adds => applyAll_filled adds filled, ?_⟩
  · rw [same_parted, and_iff_right beside, tags_exact]
    simp only [applyAll_lists]
  · intro filled other
    rw [same_parted, and_iff_right beside, tags_filled filled other]
  · intro source tag numbered absent
    rw [setTag_back numbered absent, applyAll_lists]

-- One table grows tag by tag and loses a tag again, the other comes whole with a document that is appended.
def taggedStep : List TagEdit :=
  [.set .gold "lines" true, .set .pred "words" true, .set .gold "words" true, .set .gold "words" false]

def taggedOnce : List TagEdit := [.append (((empty ⟨3⟩).setTag .pred "words" true).setTag .gold "lines" true)]

theorem taggedStep_same : (applyAll taggedStep (empty ⟨1⟩)).SameBesideTags (applyAll taggedOnce (empty ⟨2⟩))
    ∧ (applyAll taggedStep (empty ⟨1⟩)).same (applyAll taggedOnce (empty ⟨2⟩)) = true
    ∧ (∀ source tag, (applyAll taggedStep (empty ⟨1⟩)).hasTag source tag
      = (applyAll taggedOnce (empty ⟨2⟩)).hasTag source tag)
    ∧ (((applyAll taggedStep (empty ⟨1⟩)).setTag .gold "ends" true).setTag .gold "ends" false).same
      (applyAll taggedStep (empty ⟨1⟩)) = true := by
  have beside : (applyAll taggedStep (empty ⟨1⟩)).SameBesideTags (applyAll taggedOnce (empty ⟨2⟩)) :=
    ⟨rfl, rfl, rfl, rfl, rfl⟩
  have same : (applyAll taggedStep (empty ⟨1⟩)).same (applyAll taggedOnce (empty ⟨2⟩)) = true := by decide
  obtain ⟨answers, _, _, _, back⟩ := tagged_same beside
  have numbered : (applyAll taggedStep (empty ⟨1⟩)).Numbered := ⟨nofun, nofun⟩
  have listed : ∃ edit ∈ taggedStep, edit.Lists .gold := ⟨.set .gold "lines" true, by simp [taggedStep], rfl, rfl⟩
  exact ⟨beside, same, (answers.mp same).1, (back .gold "ends" numbered (by decide)).mpr (.inr listed)⟩

-- The only tag of a source, set and taken back: nothing is there, as before, but the source is still listed.
def emptied : List TagEdit := [.set .pred "words" true, .set .pred "words" false]

theorem emptied_not_same : (empty ⟨1⟩).same (empty ⟨1⟩) = true ∧ (empty ⟨1⟩).hasTag .pred "words" = false
    ∧ (applyAll emptied (empty ⟨1⟩)).SameBesideTags (empty ⟨2⟩)
    ∧ (∀ source tag, (applyAll emptied (empty ⟨1⟩)).hasTag source tag = (empty ⟨2⟩).hasTag source tag)
    ∧ (applyAll emptied (empty ⟨1⟩)).same (empty ⟨2⟩) = false
    ∧ (applyAll emptied (empty ⟨1⟩)).same (empty ⟨1⟩) = false := by
  refine ⟨by decide, by decide, ⟨rfl, rfl, rfl, rfl, rfl⟩, ?_, by decide, by decide⟩
  intro source tag
  rw [applyAll_hasTag]
  by_cases here : source = .pred ∧ tag = "words" <;> simp [emptied, answer, here] <;> rfl

end Document

end Marginalia
