import Marginalia.Proofs.Reading
import Marginalia.Record.Writer

namespace Marginalia.Reading

variable {ρ : Type} {entry : ρ → Reader ρ} {closing : Char}

-- What the entries of a container make of its items, one after the other.
inductive Steps (entry : ρ → Reader ρ) : ρ → List (List Char) → ρ → Prop
  | nil {r : ρ} : Steps entry r [] r
  | cons {r mid last : ρ} {item : List Char} {items : List (List Char)}
    (reads : Reads (entry r) item mid) (later : Steps entry mid items last) :
    Steps entry r (item :: items) last

theorem Steps.append {r last : ρ} (mid : ρ) {front back : List (List Char)} (before : Steps entry r front mid)
    (after : Steps entry mid back last) : Steps entry r (front ++ back) last := by
  induction before with
  | nil => exact after
  | cons reads _ ih => exact .cons reads (ih after)

theorem Steps.opens {r last : ρ} {items : List (List Char)} (steps : Steps entry r items last) :
    ∀ item ∈ items, Opens item := by
  induction steps with
  | nil => nofun
  | cons reads _ ih =>
    intro item member
    rcases List.mem_cons.mp member with rfl | later
    · exact reads.opens
    · exact ih item later

def Blanks (blanks : List Char) : Prop := ∀ c ∈ blanks, isGapBlank c = true

@[simp] def mark : Bool → List Char
  | true => [',']
  | false => []

-- Items up to the closing sign, with a comma behind each but perhaps the last and with blanks
-- before each and before the closing sign. The flag says whether an item may come next.
inductive Laid (closing : Char) : Bool → List (List Char) → List Char → Prop
  | done {separated : Bool} {blanks : List Char} (all : Blanks blanks) :
    Laid closing separated [] (blanks ++ [closing])
  | item {separated : Bool} {blanks item tail : List Char} {items : List (List Char)} (all : Blanks blanks)
    (behind : Laid closing separated items tail) :
    Laid closing true (item :: items) (blanks ++ (item ++ (mark separated ++ tail)))

-- The closing sign alone.
theorem Laid.last (closing : Char) (separated : Bool) : Laid closing separated [] [closing] :=
  .done (List.forall_mem_nil _)

section Layouts

theorem blanks_indent (level : Nat) : Blanks (Record.indent level) := by
  intro c member
  obtain ⟨piece, copied, inside⟩ := List.mem_flatten.mp member
  obtain ⟨-, rfl⟩ := List.mem_replicate.mp copied
  have space : ∀ c ∈ "    ".toList, isGapBlank c = true := List.all_eq_true.mp rfl
  exact space c inside

theorem laid_lines (closing : Char) (inner outer : Nat) (items : List (List Char)) :
    Laid closing true items ('\n' :: (items.flatMap (fun item => Record.indent inner ++ item ++ [',', '\n'])
      ++ Record.indent outer ++ [closing])) := by
  have line (level : Nat) : Blanks ('\n' :: Record.indent level) := by
    intro c member
    rcases List.mem_cons.mp member with rfl | inside
    · rfl
    · exact blanks_indent level c inside
  induction items with
  | nil => exact .done (line outer)
  | cons item items ih => simpa using Laid.item (line inner) ih

theorem laid_inline (closing : Char) {blanks : List Char} (all : Blanks blanks) (item : List Char)
    (items : List (List Char)) :
    Laid closing true (item :: items) (blanks ++ [',', ' '].intercalate (item :: items) ++ [closing]) := by
  induction items generalizing blanks item with
  | nil => simpa using Laid.item all (Laid.last closing false)
  | cons next items ih =>
    have space : Blanks [' '] := List.forall_mem_singleton.mpr rfl
    simpa [List.intercalate] using Laid.item all (ih space next)

-- Either way of laying out a block comes to the same.
theorem block_laid (level : Nat) (opening closing : Char) (items : List (List Char)) :
    ∃ tail, Record.block level opening closing items = opening :: tail ∧ Laid closing true items tail := by
  unfold Record.block
  split
  · next bare =>
    obtain rfl := List.isEmpty_iff.mp bare
    exact ⟨_, rfl, .last closing true⟩
  · next filled =>
    split
    · exact ⟨_, by simp, laid_lines closing level (level - 1) items⟩
    · obtain ⟨item, items, rfl⟩ := List.exists_cons_of_ne_nil (mt List.isEmpty_iff.mpr filled)
      exact ⟨_, by simp, laid_inline closing (List.forall_mem_nil _) item items⟩

end Layouts

section Entries

-- Every item takes a character at least.
theorem Laid.length_le {separated : Bool} {items : List (List Char)} {tail : List Char}
    (laid : Laid closing separated items tail) (opens : ∀ item ∈ items, Opens item) :
    items.length ≤ tail.length := by
  induction laid with
  | done => exact Nat.zero_le _
  | item _ _ ih =>
    obtain ⟨_, _, rfl, -⟩ := opens _ List.mem_cons_self
    have shorter := ih fun item member => opens item (List.mem_cons_of_mem _ member)
    simp only [List.length_append, List.length_cons]
    omega

theorem entriesFrom_closes {separated : Bool} {cs rest : List Char} (r : ρ) (rounds : Nat)
    (skipped : skipGap .blank cs = .ok (closing :: rest)) :
    entriesFrom closing entry (rounds + 1) separated r cs = .ok (r, rest) := by
  rw [entriesFrom, bind_reads (gap_reads skipped), bind_reads (get_reads _)]
  simp only [List.head?_cons, if_true]
  rfl

variable (closes : isClosing closing = true)
include closes

-- Where the reader stands after the blanks in front of an item or of the closing sign.
theorem Laid.skips {separated : Bool} {items : List (List Char)} {tail : List Char}
    (laid : Laid closing separated items tail) (opens : ∀ item ∈ items, Opens item) (rest : List Char) :
    ∃ cs, skipGap .blank (tail ++ rest) = .ok cs ∧ skipGap .blank cs = .ok cs := by
  obtain ⟨solid, plain, -⟩ := isClosing_parts closes
  cases laid with
  | done all =>
    rw [List.append_assoc, skipGap_blanks all]
    exact ⟨_, skipGap_solid solid plain, skipGap_solid solid plain⟩
  | @item separated _ _ tail _ all _ =>
    rw [List.append_assoc, skipGap_blanks all, List.append_assoc]
    have skipped := skipGap_opens ((opens _ List.mem_cons_self).append (mark separated ++ tail ++ rest))
    exact ⟨_, skipped, skipped⟩

-- What stands behind an item ends it: a comma, or blanks and the closing sign.
theorem Laid.ends {separated : Bool} {items : List (List Char)} {tail : List Char}
    (laid : Laid closing separated items tail) (rest : List Char) :
    Ends (mark separated ++ (tail ++ rest)) := by
  cases separated with
  | true => exact ends_cons rfl
  | false =>
    cases laid with
    | @done _ blanks all =>
      cases blanks with
      | nil => exact ends_cons (isClosing_parts closes).2.2.2
      | cons c blanks => exact ends_cons (isGapBlank_ends (all c List.mem_cons_self))

-- A comma is taken where one stands, and otherwise the container closes.
theorem Laid.comma {separated : Bool} {items : List (List Char)} {tail rest cs : List Char}
    (laid : Laid closing separated items tail) (skipped : skipGap .blank (tail ++ rest) = .ok cs) :
    Reading.comma (mark separated ++ (tail ++ rest)) = .ok (separated, cs) := by
  unfold Reading.comma
  cases separated with
  | true =>
    rw [bind_reads (show gap (mark true ++ (tail ++ rest)) = .ok ((), ',' :: (tail ++ rest)) from rfl),
      bind_reads (show take "," (',' :: _) = .ok (true, tail ++ rest) from rfl), if_pos rfl,
      bind_reads (gap_reads skipped)]
    rfl
  | false =>
    obtain ⟨solid, plain, other, -⟩ := isClosing_parts closes
    cases laid with
    | @done _ blanks all =>
      rw [List.append_assoc, skipGap_blanks all] at skipped
      obtain rfl : closing :: rest = cs := Except.ok.inj ((skipGap_solid solid plain).symm.trans skipped)
      have missed : take "," (closing :: rest) = .ok (false, closing :: rest) := by
        simp [take, rest?, List.isPrefixOf, Ne.symm other]
      have passed : skipGap .blank (mark false ++ (blanks ++ [closing] ++ rest)) = .ok (closing :: rest) := by
        rw [mark, List.nil_append, List.append_assoc, skipGap_blanks all]
        exact skipped
      rw [bind_reads (gap_reads passed), bind_reads missed]
      rfl

theorem entriesFrom_item {item behind cs : List Char} {r mid : ρ} (rounds : Nat) (reads : Reads (entry r) item mid)
    (ends : Ends behind) (skipped : skipGap .blank cs = .ok (item ++ behind)) :
    entriesFrom closing entry (rounds + 1) true r cs
      = (do entriesFrom closing entry rounds (← Reading.comma) mid : Reader ρ) behind := by
  obtain ⟨c, tail, shape, opening⟩ := reads.opens
  have other : c ≠ closing := by
    rintro rfl
    exact absurd closes (by simp [(isOpening_parts opening).2.2])
  rw [entriesFrom, bind_reads (gap_reads skipped), bind_reads (get_reads _), shape, List.cons_append,
    List.head?_cons, ← List.cons_append, ← shape]
  simp only [other, if_false, if_true]
  rw [bind_reads (reads.exact ends)]

-- Every item is read where it stands, and behind the last one the container closes.
theorem entriesFrom_reads {separated : Bool} {items : List (List Char)} {tail rest cs : List Char}
    {r last : ρ} {rounds : Nat} (laid : Laid closing separated items tail) (steps : Steps entry r items last)
    (enough : items.length < rounds) (skipped : skipGap .blank cs = skipGap .blank (tail ++ rest)) :
    entriesFrom closing entry rounds separated r cs = .ok (last, rest) := by
  obtain ⟨rounds, rfl⟩ := Nat.exists_eq_add_of_le' (Nat.lt_of_le_of_lt (Nat.zero_le _) enough)
  induction laid generalizing r cs rounds with
  | done all =>
    cases steps with
    | nil =>
      obtain ⟨solid, plain, -⟩ := isClosing_parts closes
      rw [List.append_assoc, skipGap_blanks all] at skipped
      exact entriesFrom_closes _ _ (skipped.trans (skipGap_solid solid plain))
  | @item separated blanks item tail items all behind ih =>
    cases steps with
    | cons reads later =>
      rw [List.append_assoc, skipGap_blanks all, List.append_assoc, List.append_assoc] at skipped
      have here := skipped.trans (skipGap_opens (reads.opens.append _))
      obtain ⟨next, found, again⟩ := behind.skips closes later.opens rest
      rw [entriesFrom_item closes rounds reads (behind.ends closes rest) here,
        bind_reads (behind.comma closes found)]
      obtain ⟨left, rfl⟩ := Nat.exists_eq_add_of_le' (Nat.lt_of_le_of_lt (Nat.zero_le _)
        (Nat.lt_of_succ_lt_succ enough))
      exact ih later (again.trans found.symm) left (by simpa using enough)

-- A block is read item by item, however it was laid out.
theorem entries_reads {opening : String} {sign : Char} (signed : opening.toList = [sign])
    {items : List (List Char)} {r last : ρ} (steps : Steps entry r items last) (level : Nat) (rest : List Char) :
    entries opening closing entry r (Record.block level sign closing items ++ rest) = .ok (last, rest) := by
  obtain ⟨tail, shape, laid⟩ := block_laid level sign closing items
  have opened : expect opening (sign :: (tail ++ rest)) = .ok ((), tail ++ rest) := by
    have read := expect_reads opening (tail ++ rest)
    rwa [signed] at read
  have enough := laid.length_le steps.opens
  unfold entries
  rw [shape, List.cons_append, bind_reads opened, bind_reads (get_reads _)]
  refine entriesFrom_reads closes laid steps ?_ rfl
  rw [List.length_append]
  omega

end Entries

section Containers

variable {α κ : Type}

theorem block_opens {sign : Char} (opening : isOpening sign = true) (level : Nat) (closing : Char)
    (items : List (List Char)) : Opens (Record.block level sign closing items) := by
  obtain ⟨tail, shape, -⟩ := block_laid level sign closing items
  exact ⟨sign, tail, shape, opening⟩

-- Entries that put what they read in front collect it in reverse.
theorem collect_steps {entry : List α → Reader (List α)} {write : α → List Char} {as : List α}
    (reads : ∀ a ∈ as, ∀ latest, Reads (entry latest) (write a) (a :: latest)) (latest : List α) :
    Steps entry latest (as.map write) (as.reverse ++ latest) := by
  induction as generalizing latest with
  | nil => exact .nil
  | cons a as ih =>
    have later := ih (fun b member => reads b (List.mem_cons_of_mem a member)) (a :: latest)
    rw [List.reverse_cons, List.append_assoc]
    exact .cons (reads a List.mem_cons_self latest) later

-- And the container gives it back in the order in which it stands.
theorem collect_reads {entry : List α → Reader (List α)} {write : α → List Char} {as : List α}
    {opening : String} {sign closing : Char} (signed : opening.toList = [sign]) (closes : isClosing closing = true)
    (opens : isOpening sign = true) (reads : ∀ a ∈ as, ∀ latest, Reads (entry latest) (write a) (a :: latest))
    (level : Nat) :
    Reads (do return (← entries opening closing entry []).reverse)
      (Record.block level sign closing (as.map write)) as where
  opens := block_opens opens level closing _
  exact := by
    intro rest _
    rw [bind_reads (entries_reads closes signed (collect_steps reads []) level rest), List.append_nil]
    exact congrArg (fun as => Except.ok (as, rest)) (List.reverse_reverse as)

theorem sequence_reads {item : Reader α} {write : α → List Char} {as : List α}
    (reads : ∀ a ∈ as, Reads item (write a) a) (level : Nat) :
    Reads (sequence item) (Record.block level '[' ']' (as.map write)) as :=
  collect_reads rfl rfl rfl (fun a member _ => (reads a member).andThen fun _ => rfl) level

-- A key, a colon and a value.
theorem pair_reads {key : Reader κ} {value : Reader α} {k : κ} {a : α} {writtenKey written : List Char}
    (keys : Reads key writtenKey k) (values : Reads value written a) (latest : List (κ × α)) :
    Reads (do
      let k ← key
      colon
      return (k, ← value) :: latest) (writtenKey ++ [':', ' '] ++ written) ((k, a) :: latest) where
  opens := (keys.opens.append _).append _
  exact := by
    intro rest ends
    simp only [List.append_assoc, List.cons_append, List.nil_append]
    rw [bind_reads (keys.exact (ends_cons rfl)), colon_reads values ends]
    rfl

theorem mapping_reads {key : Reader κ} {value : Reader α} (writeKey : κ → List Char) (write : α → List Char)
    {found : List (κ × α)} (keys : ∀ entry ∈ found, Reads key (writeKey entry.1) entry.1)
    (values : ∀ entry ∈ found, Reads value (write entry.2) entry.2) (level : Nat) :
    Reads (mapping key value) (Record.block level '\x7b' '\x7d' (found.map fun entry =>
      writeKey entry.1 ++ [':', ' '] ++ write entry.2)) found :=
  collect_reads rfl rfl rfl (fun entry member => pair_reads (keys entry member) (values entry member)) level

-- A structure written without its own name.
theorem structure_reads {field : String → ρ → Reader ρ} {r last : ρ} {items : List (List Char)} (title : String)
    (steps : Steps (fun r => do
      let key ← name
      field key r) r items last) (level : Nat) :
    Reads (structure? title field r) (Record.block level '(' ')' items) last where
  opens := block_opens rfl level ')' _
  exact := by
    intro rest _
    obtain ⟨tail, shape, -⟩ := block_laid level '(' ')' items
    have closes : isClosing ')' = true := rfl
    have opened : "(".toList = ['('] := rfl
    have read := entries_reads closes opened steps level rest
    rw [shape, List.cons_append] at read ⊢
    unfold structure?
    rw [bind_reads (get_reads _)]
    exact read

-- A field that has not come before is read where its name stands.
theorem field_reads {field : String → ρ → Reader ρ} {p : Reader α} {r : ρ} {label : String} {written : List Char}
    {a : α} {put : Option α → ρ} (plain : isWord label.toList = true)
    (takes : field label r = once none p >>= fun value => pure (put value)) (reads : Reads p written a) :
    Reads (do
      let key ← name
      field key r) (Record.field label written) (put (some a)) where
  opens := ((word_opens plain).append _).append _
  exact := by
    intro rest ends
    unfold Record.field
    simp only [List.append_assoc, List.cons_append, List.nil_append]
    rw [bind_reads ((name_reads plain).exact (ends_cons rfl)), takes, bind_reads (once_reads reads ends)]
    rfl

end Containers

end Marginalia.Reading
