import Marginalia.Proofs.Assembly
import Marginalia.Proofs.Blocks
import Marginalia.Proofs.Decimals
import Marginalia.Proofs.Quoting

namespace Marginalia

namespace Keyed

variable {κ α : Type} [Ord κ] [Std.TransOrd κ]

theorem place_last {key : κ} {value : α} {entries : List (κ × α)}
    (before : ∀ entry ∈ entries, compare entry.1 key = .lt) :
    place key value entries = entries ++ [(key, value)] := by
  induction entries with
  | nil => rfl
  | cons head rest ih =>
    have after : compare key head.1 = .gt := Std.OrientedCmp.gt_of_lt (before head List.mem_cons_self)
    unfold place
    rw [after]
    exact congrArg (head :: ·) (ih fun entry member => before entry (List.mem_cons_of_mem _ member))

variable [Std.LawfulEqOrd κ]

-- Entries in key order come to stand as they are given.
theorem foldl_insert_entries {front back : List (κ × α)} {m : Keyed κ α} (held : m.entries = front)
    (ascending : (front ++ back).Pairwise fun a b => compare a.1 b.1 = .lt) :
    (back.foldl (fun m entry => m.insert entry.1 entry.2) m).entries = front ++ back := by
  induction back generalizing front m with
  | nil => simpa using held
  | cons head rest ih =>
    have before := (List.pairwise_append.mp ascending).2.2
    have placed : (m.insert head.1 head.2).entries = front ++ [head] :=
      held ▸ place_last fun entry member => before entry (held ▸ member) head List.mem_cons_self
    have next := ih placed (by simpa using ascending)
    simpa using next

theorem ofList_entries (m : Keyed κ α) : ofList m.entries = m :=
  same_entries (foldl_insert_entries rfl m.ascending)

end Keyed

theorem Members.ofList_toList {κ : Type} [Ord κ] [Std.TransOrd κ] [Std.LawfulEqOrd κ] (s : Members κ) :
    ofList s.toList = s := by
  have same : ofList s.toList = Keyed.ofList s.entries := by
    unfold ofList toList Keyed.ofList
    rw [List.foldl_map]
    rfl
  rw [same, Keyed.ofList_entries]

namespace Reading

section Values

variable {α ρ : Type}

theorem join_some (value : Option α) : (value.map some).join = value := by cases value <;> rfl

theorem option_reads {p : Reader α} {write : α → List Char} (lenient : Leniency) {value : Option α}
    (reads : ∀ a ∈ value, Reads p (write a) a) :
    Reads (option lenient p) (Record.writeOption write value) value := by
  cases value with
  | none =>
    refine ⟨word_opens rfl, ?_⟩
    intro rest ends
    unfold option
    exact bind_reads (takeWord_reads "None" ends)
  | some a =>
    refine ⟨(((word_opens rfl).append _).append _).append _, ?_⟩
    intro rest ends
    unfold Record.writeOption Record.call option
    simp only [List.append_assoc, List.cons_append, List.nil_append]
    rw [bind_reads (takeWord_other rfl), if_neg Bool.false_ne_true,
      bind_reads (takeWord_reads "Some" (ends_cons rfl)), if_pos rfl]
    exact argument_reads (reads a rfl)

-- A field that is written only if it has a value. Without one its slot stays empty.
theorem optionalField_steps {field : String → ρ → Reader ρ} {write : α → List Char} {r : ρ} {label : String}
    {value : Option α} (lenient : Leniency) (p : Reader α) (put : Option (Option α) → ρ)
    (plain : isWord label.toList = true)
    (takes : field label r = once none (option lenient p) >>= fun value => pure (put value))
    (start : put none = r) (reads : ∀ a ∈ value, Reads p (write a) a) :
    Steps (fun r => do
      let key ← name
      field key r) r (Record.optionalField label write value) (put (value.map some)) := by
  cases value with
  | none => exact start ▸ .nil
  | some a => exact .cons (field_reads plain takes (option_reads lenient reads)) .nil

-- Offsets read back as a span where they are in order and within the limit, and otherwise the
-- record is refused for the same reason as the range.
theorem offsets_read {start stop : Nat} (low : start ≤ maxOffset) (high : stop ≤ maxOffset) (level used : Nat)
    {rest : List Char} (ends : Ends rest) :
    span used (Record.block level '(' ')'
        [Record.field "begin" (Record.writeNat start), Record.field "end" (Record.writeNat stop)] ++ rest)
      = match Span.between start stop with
        | .ok s => .ok (s, rest)
        | .error fault => .error (.recordRange fault) := by
  have starts : Reads offset (Record.writeNat start) start := natBelow_reads (by omega)
  have stops : Reads offset (Record.writeNat stop) stop := natBelow_reads (by omega)
  unfold span
  refine (bind_reads (Reads.exact (structure_reads "SpanRecord"
    (.cons (field_reads rfl rfl starts) (.cons (field_reads rfl rfl stops) .nil)) level) ends)).trans ?_
  show (match Span.between start stop with
    | .ok s => pure s
    | .error fault => throw (.recordRange fault) : Reader Span) rest = _
  cases Span.between start stop <;> rfl

theorem span_reads (level used : Nat) (s : Span) : Reads (span used) (Record.writeSpan level s) s where
  opens := block_opens rfl level ')' _
  exact := by
    intro rest ends
    have made : Span.between s.start s.stop = .ok s := by
      simp [Span.between, Nat.not_lt.mpr s.ordered, s.bounded]
    have read := offsets_read (Nat.le_trans s.ordered s.bounded) s.bounded level used ends
    rw [made] at read
    exact read

-- An attachment is a name with its argument; the name says how the argument is read.
theorem attachment_reads (level : Nat) (a : Attachment) : Reads attachment (Record.writeAttachment level a) a := by
  cases a with
  | vector entries =>
    refine ⟨(((word_opens rfl).append _).append _).append _, ?_⟩
    intro rest _
    have reads := (sequence_reads (fun x _ => binary_reads Format.single_regular x) level :
      Reads (sequence (binary .single)) _ entries).map Attachment.vector
    unfold Record.writeAttachment Record.call attachment
    simp only [List.append_assoc, List.cons_append, List.nil_append]
    rw [bind_reads ((name_reads rfl).exact (ends_cons rfl))]
    exact argument_reads reads
  | tag label =>
    refine ⟨(((word_opens rfl).append _).append _).append _, ?_⟩
    intro rest _
    have reads := (text_reads label).map Attachment.tag
    unfold Record.writeAttachment Record.call attachment
    simp only [List.append_assoc, List.cons_append, List.nil_append]
    rw [bind_reads ((name_reads rfl).exact (ends_cons rfl))]
    exact argument_reads reads

theorem attachments_reads (level : Nat) (m : Keyed String Attachment) :
    Reads (Keyed.ofList <$> mapping text attachment) (Record.writeAttachments level m) m := by
  have reads := (mapping_reads Record.writeText (Record.writeAttachment (level + 1))
    (fun entry _ => text_reads entry.1) (fun entry _ => attachment_reads (level + 1) entry.2) level :
    Reads (mapping text attachment) _ m.entries).map Keyed.ofList
  rw [Keyed.ofList_entries] at reads
  exact reads

theorem token_reads (level used : Nat) (t : Token) : Reads (token used) (Record.writeToken level t) t := by
  have texts := text_reads t.text
  have spans := span_reads (level + 1) (used + 2) t.span
  unfold Record.writeToken token
  split
  · next bare =>
    have none : t.attachments = .empty := Keyed.same_entries (List.isEmpty_iff.mp bare)
    refine Reads.andThen (structure_reads "Token"
      (.cons (field_reads rfl rfl texts) (.cons (field_reads rfl rfl spans) .nil)) level) fun rest => ?_
    show Except.ok (Token.mk t.text t.span .empty, rest) = .ok (t, rest)
    rw [← none]
  · next some =>
    have attached := attachments_reads (level + 1) t.attachments
    exact Reads.andThen (structure_reads "Token" (.cons (field_reads rfl rfl texts)
      (.cons (field_reads rfl rfl spans) (.cons (field_reads rfl rfl attached) .nil))) level) fun rest => rfl

theorem sentence_reads (level used : Nat) (s : Sentence) :
    Reads (sentence used) (Record.writeSentence level s) s := by
  have spans := span_reads (level + 1) (used + 2) s.span
  have tokens : Reads (sequence (token (used + 4))) _ s.tokens :=
    sequence_reads (fun t _ => token_reads (level + 2) (used + 4) t) (level + 1)
  unfold Record.writeSentence sentence
  exact Reads.andThen (structure_reads "Sentence"
    (.cons (field_reads rfl rfl spans) (.cons (field_reads rfl rfl tokens) .nil)) level) fun rest => rfl

theorem kind_reads (k : Kind) : Reads kind k.name.toList k := by
  cases k <;> exact (name_reads rfl).andThen fun _ => rfl

theorem source_reads (s : Source) : Reads source s.name.toList s := by
  cases s <;> exact (name_reads rfl).andThen fun _ => rfl

theorem note_reads (lenient : Leniency) (level used : Nat) (n : NoteBody) :
    Reads (note lenient used) (Record.writeNote level n) n := by
  have spans := span_reads (level + 1) (used + 2) n.span
  have kinds := kind_reads n.kind
  have sources := source_reads n.source
  have confidences := binary_reads Format.double_regular n.confidence
  unfold Record.writeNote note
  refine Reads.andThen (structure_reads "Annotation" (.cons (field_reads rfl rfl spans)
    (.cons (field_reads rfl rfl kinds) (.cons (field_reads rfl rfl sources)
      (.cons (field_reads rfl rfl confidences)
        (optionalField_steps lenient text (fun label => ⟨n.span, n.kind, n.source, n.confidence, label⟩)
          (by rfl) (by rfl) (by rfl) fun label _ => text_reads label))))) level) fun rest => ?_
  show Except.ok (NoteBody.mk n.span n.kind n.source n.confidence (n.label.map some).join, rest) = .ok (n, rest)
  rw [join_some]

theorem heading_reads (lenient : Leniency) (level used : Nat) (h : Heading) :
    Reads (heading lenient used) (Record.writeHeading level h) h := by
  have titles : Reads (option lenient text) (Record.writeOption Record.writeText h.title) h.title :=
    option_reads lenient fun title _ => text_reads title
  unfold Record.writeHeading heading
  refine Reads.andThen (structure_reads "TitleAbstract" (.cons (field_reads rfl rfl titles)
    (optionalField_steps lenient text (fun summary => ⟨some h.title, summary⟩)
      (by rfl) (by rfl) (by rfl) fun summary _ => text_reads summary)) level) fun rest => ?_
  show Except.ok (Heading.mk h.title (h.summary.map some).join, rest) = .ok (h, rest)
  rw [join_some]

theorem tags_reads (level : Nat) (tags : TagTable) :
    Reads (Keyed.ofList <$> mapping source (Members.ofList <$> sequence text)) (Record.writeTags level tags) tags := by
  have members (labels : Members String) : Reads (Members.ofList <$> sequence text)
      (Record.block (level + 1) '[' ']' (labels.toList.map Record.writeText)) labels := by
    have reads := (sequence_reads (fun label _ => text_reads label) (level + 1) :
      Reads (sequence text) _ labels.toList).map Members.ofList
    rw [Members.ofList_toList] at reads
    exact reads
  have reads := (mapping_reads (fun s => s.name.toList)
    (fun labels => Record.block (level + 1) '[' ']' (labels.toList.map Record.writeText))
    (fun entry _ => source_reads entry.1) (fun entry _ => members entry.2) level :
    Reads (mapping source (Members.ofList <$> sequence text)) _ tags.entries).map Keyed.ofList
  rw [Keyed.ofList_entries] at reads
  exact reads

theorem record_reads (lenient : Leniency) (r : Record NoteBody) : Reads (record lenient) r.chars r := by
  have spans := span_reads 2 2 r.span
  have sentences : Reads (sequence (sentence 4)) _ r.sentences :=
    sequence_reads (fun s _ => sentence_reads 3 4 s) 2
  have notes : Reads (sequence (note lenient 4)) _ r.notes :=
    sequence_reads (fun n _ => note_reads lenient 3 4 n) 2
  have tags := tags_reads 2 r.tags
  let named : RecordFields := ⟨r.id.map some, none, none, none, none, none, none, none⟩
  let spoken : RecordFields := { named with language := r.language.map some }
  let typed : RecordFields := { spoken with docType := r.docType.map some }
  let headed : RecordFields := { typed with heading := r.heading.map some }
  unfold Record.chars record
  refine Reads.andThen (structure_reads "DocumentRecord" (.append headed (.append typed (.append spoken (.append named
    ?id ?language) ?docType) ?heading) (.cons (field_reads rfl rfl spans) (.cons (field_reads rfl rfl sentences)
      (.cons (field_reads rfl rfl notes) (.cons (field_reads rfl rfl tags) .nil))))) 1) ?whole
  case id =>
    refine optionalField_steps lenient text (fun id => { named with id }) ?_ ?_ ?_
      fun id _ => text_reads id <;> rfl
  case language =>
    refine optionalField_steps lenient text (fun language => { named with language }) ?_ ?_ ?_
      fun language _ => text_reads language <;> rfl
  case docType =>
    refine optionalField_steps lenient text (fun docType => { spoken with docType }) ?_ ?_ ?_
      fun docType _ => text_reads docType <;> rfl
  case heading =>
    refine optionalField_steps lenient (heading lenient 3) (fun heading => { typed with heading }) ?_ ?_ ?_
      fun h _ => heading_reads lenient 2 3 h <;> rfl
  case whole =>
    intro rest
    show Except.ok (Record.mk (r.id.map some).join (r.language.map some).join (r.docType.map some).join
      (r.heading.map some).join r.span r.sentences r.notes r.tags, rest) = .ok (r, rest)
    simp only [join_some]

-- Nothing stands before or behind a written record.
theorem whole_reads (r : Record NoteBody) : whole r.chars = .ok (r, []) := by
  have reads := record_reads ⟨false⟩ r
  have read := reads.exact ends_nil
  obtain ⟨tail, shape, -⟩ := block_laid 1 '(' ')' _
  have shape : r.chars = '(' :: tail := shape
  rw [List.append_nil, shape] at read
  have bare : attributes (('(' :: tail).length + 1) ⟨false⟩ ('(' :: tail) = .ok (⟨false⟩, '(' :: tail) := rfl
  unfold whole
  rw [shape, bind_reads (get_reads _), bind_reads bare, bind_reads read]
  rfl

end Values

end Reading

namespace Record

-- A written record reads back, whatever its texts, numbers and ranges.
theorem read_write (r : Record NoteBody) : read r.write = .ok r := by
  unfold read write
  rw [String.toList_ofList, Reading.whole_reads]
  rfl

-- The document made from a record holds it and nothing more.
theorem freshDocument_exact (r : Record NoteBody) (supply : Supply) :
    (r.freshDocument supply).1.record.bodies = r
      ∧ (r.freshDocument supply).1.metadata = r.metadata
      ∧ ∀ n ∈ (r.freshDocument supply).1.notes, n.document = some (r.freshDocument supply).1.handle := by
  have bodies := (fresh_notes r.notes supply).1
  have made : (r.freshDocument supply).1
      = document { r with notes := (r.notes.mapM NoteBody.fresh supply).1 }
        ⟨(r.notes.mapM NoteBody.fresh supply).2.handle⟩ := rfl
  generalize (r.notes.mapM NoteBody.fresh supply).1 = notes at bodies made
  rw [made, document, Document.addNotes_exact]
  refine ⟨?_, rfl, ?_⟩
  · simp only [Document.record, Record.bodies, metadata, List.nil_append, List.map_map]
    rw [show Note.toNoteBody ∘ (Note.rehomed · _) = Note.toNoteBody from rfl, bodies]
  · intro n member
    obtain ⟨old, _, rfl⟩ := List.mem_map.mp (by simpa using member)
    rfl

end Record

namespace Document

-- What a record keeps of a document: all but its handle, its provenance and the names of its
-- notes, which come to belong to the new document.
structure Restores (e d : Document) : Prop where
  metadata : e.metadata = { d.metadata with provenance := none }
  span : e.span = d.span
  sentences : e.sentences = d.sentences
  notes : e.notes.map Note.toNoteBody = d.notes.map Note.toNoteBody
  homes : ∀ n ∈ e.notes, n.document = some e.handle
  tags : e.tags = d.tags

-- No range of the document is inverted.
structure Ordered (d : Document) : Prop where
  document : d.span.start ≤ d.span.stop
  sentences : ∀ s ∈ d.sentences, s.span.start ≤ s.span.stop
  tokens : ∀ s ∈ d.sentences, ∀ t ∈ s.tokens, t.span.start ≤ t.span.stop
  notes : ∀ n ∈ d.notes, n.span.start ≤ n.span.stop

theorem ordered (d : Document) : d.Ordered :=
  ⟨d.span.ordered, fun s _ => s.span.ordered, fun _ _ t _ => t.span.ordered, fun n _ => n.span.ordered⟩

theorem fresh_restores (d : Document) (supply : Supply) : (d.record.bodies.freshDocument supply).1.Restores d := by
  obtain ⟨held, metadata, homes⟩ := Record.freshDocument_exact d.record.bodies supply
  exact ⟨metadata, congrArg Record.span held, congrArg Record.sentences held, congrArg Record.notes held, homes,
    congrArg Record.tags held⟩

-- A document comes back from its written record. What any accepted text gives has no inverted
-- range, and comes back from its own written record as it is.
theorem written_reloads :
    (∀ (d : Document) (supply : Supply), ∃ r, Record.read d.record.bodies.write = .ok r
      ∧ (r.freshDocument supply).1.Restores d)
    ∧ ∀ (text : String) (r : Record NoteBody), Record.read text = .ok r → ∀ supply later : Supply,
      (r.freshDocument supply).1.Ordered
        ∧ ∃ again, Record.read (r.freshDocument supply).1.record.bodies.write = .ok again
          ∧ (again.freshDocument later).1.Restores (r.freshDocument supply).1
          ∧ (again.freshDocument later).1.metadata = (r.freshDocument supply).1.metadata := by
  refine ⟨fun d supply => ⟨_, Record.read_write _, fresh_restores d supply⟩, ?_⟩
  intro text r _ supply later
  have restores := fresh_restores (r.freshDocument supply).1 later
  have bare := (Record.freshDocument_exact r supply).2.1
  refine ⟨ordered _, _, Record.read_write _, restores, ?_⟩
  rw [restores.metadata, bare]
  rfl

-- A text that no document is written as: fields in another order or missing, a value without the
-- word for it, an offset in another base and a comment.
def loose : String := "#![enable(implicit_some)] (sentences: [], id: \"\\u\x7be9\x7d\", // by hand
span: (end: 0xC, begin: 3), annotations: [(kind: Mention, span: (begin: 3, end: 5), source: GOLD, confidence: 1e0)])"

def looseRecord : Record NoteBody where
  id := some "é"
  language := none
  docType := none
  heading := none
  span := ⟨3, 12, by decide, by decide⟩
  sentences := []
  notes := [.plain .mention .gold ⟨3, 5, by decide, by decide⟩]
  tags := .empty

theorem loose_reads : Record.read loose = .ok looseRecord := by
  have found : (Record.read loose).toOption = some looseRecord := by decide +kernel
  cases read : Record.read loose with
  | error fault =>
    rw [read] at found
    cases found
  | ok r =>
    rw [read] at found
    exact congrArg Except.ok (Option.some.inj found)

theorem loose_reloads : Record.read loose = .ok looseRecord
    ∧ (looseRecord.freshDocument .initial).1.Ordered
    ∧ ∃ again, Record.read (looseRecord.freshDocument .initial).1.record.bodies.write = .ok again
      ∧ (again.freshDocument .initial).1.Restores (looseRecord.freshDocument .initial).1
      ∧ (again.freshDocument .initial).1.metadata = (looseRecord.freshDocument .initial).1.metadata :=
  ⟨loose_reads, written_reloads.2 loose looseRecord loose_reads .initial .initial⟩

end Document

end Marginalia
