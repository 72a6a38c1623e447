import Marginalia.Joining
import Marginalia.Proofs.Slots
import Mathlib.Data.List.TakeWhile

namespace Marginalia

namespace Text

-- What a text holds besides blanks, wherever these stand in it.
def unblanked (text : List Char) : List Char := text.filter fun c => !isBlank c

theorem unblanked_append (left right : List Char) : unblanked (left ++ right) = unblanked left ++ unblanked right :=
  List.filter_append ..

theorem unblanked_blanks (count : Nat) : unblanked (blanks count) = [] := by
  refine List.filter_eq_nil_iff.mpr fun c member => ?_
  rw [List.eq_of_mem_replicate member, space_isBlank]
  exact Bool.false_ne_true

theorem unblanked_dropWhile (text : List Char) : unblanked (text.dropWhile isBlank) = unblanked text := by
  conv_rhs => rw [← List.takeWhile_append_dropWhile (p := isBlank) (l := text), unblanked_append]
  have passed : unblanked (text.takeWhile isBlank) = [] := by
    refine List.filter_eq_nil_iff.mpr fun c member => ?_
    simp [List.mem_takeWhile_imp member]
  rw [passed, List.nil_append]

theorem unblanked_trim (text : List Char) : unblanked (trim text) = unblanked text := by
  have turned (back : List Char) : unblanked back.reverse = (unblanked back).reverse := List.filter_reverse
  rw [trim, trimEnd, turned, unblanked_dropWhile, turned, List.reverse_reverse, unblanked_dropWhile]

theorem trim_blanks (count : Nat) (text : List Char) : trim (blanks count ++ text) = trim text := by
  have passed : (blanks count).dropWhile isBlank = [] :=
    List.dropWhile_eq_nil_iff.mpr fun c member => by rw [List.eq_of_mem_replicate member, space_isBlank]
  rw [trim, List.dropWhile_append, passed]
  rfl

end Text

namespace Joining

open Text

variable (rules : Joining)

-- How many blanks the rules put between two words.
def space (previous next : String) : Nat := if rules.spaced previous next then 1 else 0

theorem join_cons (previous word : String) (rest : List String) : rules.join previous (word :: rest)
    = blanks (rules.space previous word) ++ (word.toList ++ rules.join word rest) := by
  rw [join, space, List.append_assoc]
  split <;> rfl

theorem unblanked_join (previous : String) (words : List String) :
    unblanked (rules.join previous words) = words.flatMap fun word => unblanked word.toList := by
  induction words generalizing previous with
  | nil => rfl
  | cons word rest ih =>
    rw [join_cons, unblanked_append, unblanked_append, unblanked_blanks, ih, List.nil_append, List.flatMap_cons]

-- The token stands behind the other one, with the gap that the rules put between their words.
def Follows (a b : Token) : Prop := b.start = a.stop + rules.space a.text b.text

instance : DecidableRel rules.Follows := fun a b =>
  inferInstanceAs (Decidable (b.start = a.stop + rules.space a.text b.text))

-- A token with a word, in a slot of its length.
def Fitting (t : Token) : Prop := t.text ≠ "" ∧ t.length = t.text.utf8ByteSize

instance : DecidablePred Fitting := fun t => inferInstanceAs (Decidable (t.text ≠ "" ∧ _))

theorem Fitting.inked {t : Token} (fitting : Fitting t) : t.isEmpty = false := by
  obtain ⟨worded, length⟩ := fitting
  have positive : 0 < t.text.utf8ByteSize := Nat.pos_of_ne_zero (mt String.utf8ByteSize_eq_zero_iff.mp worded)
  refine Token.isEmpty_false.mpr ?_
  rw [← length] at positive
  exact Nat.lt_of_sub_pos positive

theorem Fitting.fill {t : Token} (fitting : Fitting t) : Layout.fill t.length t.text.toList = t.text.toList :=
  Layout.fill_whole ((Token.width_utf8 t.text).trans fitting.2.symm)

variable {rules}

-- From the end of a token on both ways of writing go on alike.
theorem chars_join {t : Token} {rest : List Token} (fitting : ∀ u ∈ rest, Fitting u)
    (chain : (t :: rest).IsChain rules.Follows) :
    Layout.chars t.stop rest = rules.join t.text (rest.map Token.text) := by
  induction rest generalizing t with
  | nil => rfl
  | cons u more ih =>
    obtain ⟨follows, behind⟩ := List.isChain_cons_cons.mp chain
    obtain ⟨here, later⟩ := List.forall_mem_cons.mp fitting
    have gap : Layout.lead t.stop u.start = blanks (rules.space t.text u.text) := by
      rw [Layout.lead, follows, if_neg (Nat.not_lt.mpr (Nat.le_add_right _ _)), Nat.add_sub_cancel_left]
    rw [Layout.chars_slot here.inked, gap, here.fill, ih later behind, List.map_cons, join_cons, List.append_assoc]

theorem chars_words {first : Token} {rest : List Token} (fitting : ∀ t ∈ first :: rest, Fitting t)
    (chain : (first :: rest).IsChain rules.Follows) :
    rules.chars ((first :: rest).map Token.text) = trim (Layout.chars first.start (first :: rest)) := by
  obtain ⟨here, later⟩ := List.forall_mem_cons.mp fitting
  have at_once : Layout.lead first.start first.start = [] := by
    rw [Layout.lead, if_neg (Nat.lt_irrefl _), Nat.sub_self]
    rfl
  rw [chars, List.map_cons, join_cons, trim_blanks, Layout.chars_slot here.inked, at_once, here.fill,
    chars_join later chain]
  rfl

-- By whatever rules words are joined, nothing but blanks is put in or trimmed off. Where tokens stand as the
-- rules would have them, their words joined are the layout of their offsets, trimmed.
theorem words_joined (rules : Joining) :
    (∀ tokens : List Token, unblanked (rules.text (tokens.map Token.text)).toList
        = tokens.flatMap fun t => unblanked t.text.toList)
      ∧ ∀ first rest, (∀ t ∈ first :: rest, Fitting t) → (first :: rest).IsChain rules.Follows →
        rules.text ((first :: rest).map Token.text)
          = String.ofList (trim (Layout.text first.start (first :: rest)).toList) := by
  constructor
  · intro tokens
    rw [text, String.toList_ofList, chars, unblanked_trim, unblanked_join, List.flatMap_map]
  · intro first rest fitting chain
    rw [text, chars_words fitting chain, Layout.text, String.toList_ofList]

-- Rules that put a blank before the first word, and among the words a wide blank and a line break.
def bracketing : Joining := ⟨.ofList [")"], .ofList ["("]⟩

def bracketed : List Token :=
  [.starting "(" 7, .starting "a" 8, .starting "\u3000" 10, .starting "é" 14, .starting ")" 16, .starting "\n" 18]

theorem bracketed_joined : bracketing.text (bracketed.map Token.text) = "(a \u3000 é)"
    ∧ unblanked (bracketing.text (bracketed.map Token.text)).toList = ['(', 'a', 'é', ')']
    ∧ (Layout.text 7 bracketed) = "(a \u3000 é) \n"
    ∧ bracketing.text (bracketed.map Token.text) = String.ofList (trim (Layout.text 7 bracketed).toList) := by
  obtain ⟨kept, agrees⟩ := words_joined bracketing
  exact ⟨by decide, kept bracketed, by decide, agrees _ _ (by decide) (by decide)⟩

end Joining

end Marginalia
