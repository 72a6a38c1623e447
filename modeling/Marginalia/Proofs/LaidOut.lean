import Marginalia.Proofs.Segmented

namespace Marginalia

namespace Splitter

open Segmenting

variable (s : Segmenting) (sentences words : Text.Cutter)

theorem extend_wellLaid {text : String} {d : Document} (laid : d.WellLaid) (supply : Supply)
    (small : Token.width text ≤ maxOffset)
    (fits : d.joint + (gathered (s.sentencesBy sentences words text.toList) ⟨supply.handle⟩).stop
      ≤ maxOffset) : ((cutting s sentences words).extend text d supply).1.2.WellLaid := by
  rw [(cutting s sentences words).extend_accepted rfl]
  exact Document.append_wellLaid laid (cut_wellLaid s sentences words small _) fits

theorem replace_wellLaid (text : String) (d : Document) (supply : Supply)
    (small : Token.width text ≤ maxOffset) :
    ((cutting s sentences words).replace text d supply).1.2.WellLaid := by
  have reset : d.cleared.joint = 0 := Document.joint_bare (Document.cleared_derived d) rfl
  have within := cut_stop s sentences words small ⟨supply.handle⟩
  apply extend_wellLaid s sentences words (Document.cleared_wellLaid d) supply small
  rw [reset, Nat.zero_add]
  exact Nat.le_trans within small

theorem document_wellLaid {text : String} {d : Document} {supply : Supply}
    (made : ((cutting s sentences words).document text supply).1 = .ok d)
    (small : Token.width text ≤ maxOffset) : d.WellLaid := by
  rw [(cutting s sentences words).document_accepted rfl] at made
  cases Except.ok.inj made
  have within := cut_stop s sentences words small ⟨supply.handle + 1⟩
  have at_zero := Document.joint_bare (Document.empty_derived ⟨supply.handle⟩) rfl
  apply Document.append_wellLaid (Document.empty_wellLaid _) (cut_wellLaid s sentences words small _)
  rw [at_zero, Nat.zero_add]
  exact Nat.le_trans within small

end Splitter

namespace Document

-- What a run of careful operations reaches: sentences and documents that come in are well laid
-- themselves, those that keep their offsets come behind the end, texts are cut by any two rules,
-- and no offset passes the limit.
inductive LaidOut : Document → Prop where
  | new (handle : Handle) : LaidOut (.empty handle)
  | addAtEnd {d : Document} {s : Sentence} (run : LaidOut d) (added : s.WellLaid)
      (fits : d.landing + s.length ≤ maxOffset) : LaidOut (d.addAtEnd s)
  | addInPlace {d : Document} {s : Sentence} (run : LaidOut d) (added : s.WellLaid)
      (behind : d.sentences ≠ [] → d.stop ≤ s.start) : LaidOut (d.addInPlace s)
  | append {d other : Document} (run : LaidOut d) (added : other.WellLaid)
      (fits : d.joint + other.stop ≤ maxOffset) : LaidOut (d.append other)
  | copyWith {d : Document} (run : LaidOut d) (handle : Handle) (transform : String → String) :
      LaidOut (d.copyWith handle transform)
  | replaced {d : Document} (run : LaidOut d) (s : Segmenting) (sentences words : Text.Cutter)
      (text : String) (supply : Supply) (small : Token.width text ≤ maxOffset) :
      LaidOut ((Splitter.cutting s sentences words).replace text d supply).1.2
  | extended {d : Document} (run : LaidOut d) (s : Segmenting) (sentences words : Text.Cutter)
      (text : String) (supply : Supply) (small : Token.width text ≤ maxOffset)
      (fits : d.joint + (Splitter.gathered (s.sentencesBy sentences words text.toList)
        ⟨supply.handle⟩).stop ≤ maxOffset) :
      LaidOut ((Splitter.cutting s sentences words).extend text d supply).1.2
  | ofText {d : Document} (s : Segmenting) (sentences words : Text.Cutter) (text : String) (supply : Supply)
      (made : ((Splitter.cutting s sentences words).document text supply).1 = .ok d)
      (small : Token.width text ≤ maxOffset) : LaidOut d
  | edited {d : Document} (run : LaidOut d) (index : Nat) {edit : Token → Token} (still : Token.Still edit) :
      LaidOut (d.editToken index edit)
  | reloaded {d : Document} (run : LaidOut d) (handle : Handle) : LaidOut (d.record.document handle)

theorem LaidOut.wellLaid {d : Document} (run : d.LaidOut) : d.WellLaid := by
  induction run with
  | new handle => exact empty_wellLaid handle
  | addAtEnd _ added fits ih => exact addAtEnd_wellLaid ih added fits
  | addInPlace _ added behind ih => exact addInPlace_wellLaid ih added behind
  | append _ added fits ih => exact append_wellLaid ih added fits
  | copyWith _ handle transform ih => exact ih.of_shape rfl (copyWith_shape _ handle transform)
  | replaced _ s sentences words text supply small _ =>
    exact Splitter.replace_wellLaid s sentences words text _ supply small
  | extended _ s sentences words text supply small fits ih =>
    exact Splitter.extend_wellLaid s sentences words ih supply small fits
  | ofText s sentences words text supply made small =>
    exact Splitter.document_wellLaid s sentences words made small
  | edited _ index still ih => exact ih.of_shape rfl (editToken_shape _ index still)
  | @reloaded d _ handle ih =>
    obtain ⟨span, sentences⟩ := record_document_tree d handle
    exact ih.of_shape span (by simp only [shape, sentences])

theorem laidOut_texts {d : Document} (run : d.LaidOut) :
    d.WellLaid ∧ Text.bytes d.chars = d.span.length ∧ d.textAt d.span = .ok d.text
      ∧ (∀ s ∈ d.sentences, d.textAt s.span = .ok s.text)
      ∧ ∀ t ∈ d.tokens, d.textAt t.span = .ok (String.ofList (Layout.fill t.length t.text.toList)) := by
  have laid := run.wellLaid
  have reaches := laid.laid_stop
  refine ⟨laid, ?_, laid.textAt_whole, fun s member => laid.textAt_sentence member,
    fun t member => laid.textAt_token member⟩
  simp only [Span.length, start, stop] at *
  omega

-- A word too long for its slot, cut before a character of two bytes, one too short, and a
-- sentence moved behind them.
def fittedLine : Sentence := .ofTokens [.spanning "doué" (.clamped 4 4), .spanning "x" (.clamped 9 3)]

def fittedWord : Sentence := .ofTokens [.spanning "ok" (.clamped 2 2)]

def fitted : Document := ((empty ⟨1⟩).addInPlace fittedLine).addAtEnd fittedWord

theorem fitted_texts : fitted.LaidOut ∧ Text.bytes fitted.chars = 11
    ∧ fitted.textAt (.clamped 4 4) = .ok "dou " ∧ fitted.textAt (.clamped 4 8) = .ok "dou  x  "
    ∧ fitted.textAt (.clamped 13 2) = .ok "ok" := by
  have line : fittedLine.WellLaid :=
    ⟨by decide, by decide, Token.chain_pairwise.mpr (by decide), by decide⟩
  have word : fittedWord.WellLaid :=
    ⟨by decide, by decide, Token.chain_pairwise.mpr (by decide), by decide⟩
  have run : fitted.LaidOut := .addAtEnd (.addInPlace (.new _) line (by decide)) word (by decide)
  obtain ⟨_, size, _, sentences, tokens⟩ := laidOut_texts run
  have cut := tokens (.spanning "doué" (.clamped 4 4)) (by decide)
  have moved := tokens (.spanning "ok" (.clamped 13 2)) (by decide)
  have first := sentences fittedLine (by decide)
  exact ⟨run, size.trans (by decide), cut.trans (by decide), first.trans (by decide), moved.trans (by decide)⟩

-- At the limit a move shortens what it moves, here to nothing.
def brink : Document :=
  (empty ⟨1⟩).addInPlace (.ofTokens [.spanning "a" (.clamped (maxOffset - 4) 1)])

def brinkLine : Sentence := .ofTokens [.spanning "bb" (.clamped 0 2), .spanning "cc" (.clamped 2 2)]

theorem brink_not_wellLaid : brink.LaidOut ∧ brinkLine.WellLaid ∧ ¬ (brink.addAtEnd brinkLine).WellLaid := by
  have edge : (Sentence.ofTokens [.spanning "a" (.clamped (maxOffset - 4) 1)]).WellLaid :=
    ⟨by decide, by decide, Token.chain_pairwise.mpr (by decide), by decide⟩
  have line : brinkLine.WellLaid :=
    ⟨by decide, by decide, Token.chain_pairwise.mpr (by decide), by decide⟩
  refine ⟨.addInPlace (.new _) edge (by decide), line, ?_⟩
  intro laid
  have empty_word := laid.filled (.spanning "cc" (.clamped maxOffset 0)) (by decide)
  exact absurd empty_word (by decide)

end Document

end Marginalia
