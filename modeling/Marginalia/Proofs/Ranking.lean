import Marginalia.Proofs.Rounding
import Marginalia.Query
import Mathlib.Data.List.Dedup

namespace Marginalia

namespace Binary

variable {f : Format}

-- The number as a whole multiple of 1 / 2 ^ scale. Infinity counts as what its word would be.
def value (negative : Bool) (word : Nat) : Int :=
  if negative then -(units f word : Int) else units f word

-- The total order of numbers: by value, and the negative zero below the positive one.
def Below : Binary f → Binary f → Prop
  | .number s a, .number t b =>
    value (f := f) s a < value (f := f) t b ∨ value (f := f) s a = value (f := f) t b ∧ s = true ∧ t = false
  | _, _ => False

theorem units_lt_exact {a b : Nat} : units f a < units f b ↔ a < b := by
  constructor
  · intro less
    by_contra least
    have := units_le (f := f) (Nat.le_of_not_lt least)
    omega
  · exact units_lt

theorem below_exact {x y : Binary f} : x.Below y ↔ ∃ i j, x.rank? = some i ∧ y.rank? = some j ∧ i < j := by
  cases x with
  | nan => simp [Below, rank?]
  | number s a =>
    cases y with
    | nan => simp [Below, rank?]
    | number t b =>
      have words := units_lt_exact (f := f) (a := a) (b := b)
      have others := units_lt_exact (f := f) (a := b) (b := a)
      cases s <;> cases t <;> simp [Below, rank?, value] <;> omega

theorem rank?_same {x y : Binary f} (same : x.rank? = y.rank?) : x = y := by
  cases x with
  | nan => cases y with
    | nan => rfl
    | number t b => cases same
  | number s a => cases y with
    | nan => cases same
    | number t b =>
      have ranks := Option.some.inj same
      cases s <;> cases t <;> simp at ranks <;> simp [Fin.ext_iff] <;> omega

-- Of two relevances the greater number comes first, and any number before what is none.
def Sooner (x y : Binary f) : Prop := (x ≠ .nan ∧ y = .nan) ∨ y.Below x

theorem sooner_exact {x y : Binary f} : x.Sooner y ↔ compare y.rank? x.rank? = .lt := by
  unfold Sooner
  rw [below_exact]
  cases x with
  | nan => cases y <;> simp [rank?]
  | number s a => cases y with
    | nan => exact ⟨fun _ => rfl, fun _ => .inl ⟨nofun, rfl⟩⟩
    | number t b =>
      constructor
      · rintro (⟨-, none_there⟩ | ⟨i, j, left, right, less⟩)
        · cases none_there
        · rw [left, right]
          exact Int.compare_eq_lt.mpr less
      · exact fun less => .inr ⟨_, _, rfl, rfl, Int.compare_eq_lt.mp less⟩

end Binary

namespace Hit

-- What a hit is ranked by.
structure Rank where
  relevance : Binary .double
  document : Handle
  note : NoteId
deriving DecidableEq

def rank (h : Hit) : Rank := ⟨h.relevance, h.document.handle, h.note.id⟩

-- The greater relevance, then the document that was made earlier, then the earlier note.
def Rank.Ahead (a b : Rank) : Prop :=
  a.relevance.Sooner b.relevance ∨ a.relevance = b.relevance ∧
    (a.document.number < b.document.number ∨ a.document = b.document ∧ a.note.number < b.note.number)

theorem order_exact (a b : Hit) : a.order b = ((compare b.relevance.rank? a.relevance.rank?).then
    (compare a.document.handle.number b.document.handle.number)).then (compare a.note.id.number b.note.id.number) := by
  unfold order
  cases a.relevance.rank? <;> cases b.relevance.rank? <;> rfl

-- Three orders one after the other, the first of them backwards.
instance : Std.TransCmp order := by
  have parts : order = compareLex (compareLex (fun a b : Hit => compareOn (·.relevance.rank?) b a)
      (compareOn (·.document.handle.number))) (compareOn (·.note.id.number)) :=
    funext fun a => funext fun b => order_exact a b
  rw [parts]
  infer_instance

theorem order_same {a b : Hit} : a.order b = .eq ↔ a.rank = b.rank := by
  rw [order_exact, Ordering.then_eq_eq, Ordering.then_eq_eq, Std.compare_eq_iff_eq, Std.compare_eq_iff_eq,
    Std.compare_eq_iff_eq, rank, rank, Rank.mk.injEq]
  constructor
  · rintro ⟨⟨relevance, document⟩, note⟩
    exact ⟨Binary.rank?_same relevance.symm, congrArg Handle.mk document, congrArg NoteId.mk note⟩
  · rintro ⟨relevance, document, note⟩
    exact ⟨⟨congrArg Binary.rank? relevance.symm, congrArg Handle.number document⟩, congrArg NoteId.number note⟩

theorem order_ahead {a b : Hit} : a.order b = .lt ↔ a.rank.Ahead b.rank := by
  have same_relevance : compare b.relevance.rank? a.relevance.rank? = .eq ↔ a.relevance = b.relevance := by
    rw [Std.compare_eq_iff_eq]
    exact ⟨fun same => Binary.rank?_same same.symm, fun same => congrArg Binary.rank? same.symm⟩
  have same_document : compare a.document.handle.number b.document.handle.number = .eq
      ↔ a.document.handle = b.document.handle := by
    rw [Std.compare_eq_iff_eq]
    exact ⟨congrArg Handle.mk, congrArg Handle.number⟩
  rw [order_exact, Ordering.then_eq_lt, Ordering.then_eq_lt, Ordering.then_eq_eq, ← Binary.sooner_exact,
    same_relevance, same_document, Nat.compare_eq_lt, Nat.compare_eq_lt]
  unfold Rank.Ahead rank
  tauto

-- Every hit is ahead of all that follow it.
def Ranked (hits : List Hit) : Prop := hits.Pairwise fun a b => a.order b = .lt

end Hit

namespace Query

open Hit

variable {hit : Hit} {hits : List Hit}

theorem mem_place {h : Hit} (member : h ∈ (place hit hits).2) : h = hit ∨ h ∈ hits := by
  induction hits with
  | nil => simpa [place] using member
  | cons first rest ih =>
    unfold place at member
    split at member
    · simpa using member
    · exact .inr member
    · rcases List.mem_cons.mp member with rfl | later
      · exact .inr List.mem_cons_self
      · rcases ih later with new | old
        · exact .inl new
        · exact .inr (List.mem_cons_of_mem _ old)

theorem place_ranked (ranked : Ranked hits) : Ranked (place hit hits).2 := by
  induction hits with
  | nil => exact List.pairwise_singleton _ _
  | cons first rest ih =>
    obtain ⟨ahead, tail⟩ := List.pairwise_cons.mp ranked
    unfold place
    split
    · rename_i before
      refine List.pairwise_cons.mpr ⟨?_, ranked⟩
      intro h member
      rcases List.mem_cons.mp member with rfl | later
      · exact before
      · exact Std.TransCmp.lt_trans before (ahead h later)
    · exact ranked
    · rename_i behind
      refine List.pairwise_cons.mpr ⟨?_, ih tail⟩
      intro h member
      rcases mem_place member with rfl | old
      · exact Std.OrientedCmp.lt_of_gt behind
      · exact ahead h old

-- The search stops early where a hit would have to stand, so it misses no equal one further on.
theorem place_held (ranked : Ranked hits) {h : Hit} (held : h ∈ hits) (same : hit.order h = .eq) :
    place hit hits = (false, hits) := by
  induction hits with
  | nil => cases held
  | cons first rest ih =>
    obtain ⟨ahead, tail⟩ := List.pairwise_cons.mp ranked
    unfold place
    split
    · rename_i before
      rcases List.mem_cons.mp held with rfl | later
      · rw [same] at before
        cases before
      · rw [Std.TransCmp.lt_trans before (ahead h later)] at same
        cases same
    · rfl
    · rename_i behind
      rcases List.mem_cons.mp held with rfl | later
      · rw [same] at behind
        cases behind
      · rw [ih tail later]

theorem place_new (fresh : ∀ h ∈ hits, hit.order h ≠ .eq) :
    (place hit hits).1 = true ∧ (place hit hits).2.Perm (hit :: hits) := by
  induction hits with
  | nil => exact ⟨rfl, .refl _⟩
  | cons first rest ih =>
    obtain ⟨added, kept⟩ := ih fun h member => fresh h (List.mem_cons_of_mem _ member)
    unfold place
    split
    · exact ⟨rfl, .refl _⟩
    · rename_i same
      exact absurd same (fresh first List.mem_cons_self)
    · exact ⟨added, (kept.cons first).trans (.swap hit first rest)⟩

-- What a call would be ranked by, and what calls one after the other leave.
def callRank (call : Document × Note) : Rank := ⟨call.2.confidence, call.1.handle, call.2.id⟩

def addAll (q : Query) (calls : List (Document × Note)) : Query :=
  calls.foldl (fun q call => (q.addHit call.1 call.2).2) q

def Holds (q : Query) (r : Rank) : Prop := ∃ h ∈ q.hits, h.rank = r

theorem addHit_held {q : Query} (ranked : Ranked q.hits) {call : Document × Note} (held : q.Holds (callRank call)) :
    q.addHit call.1 call.2 = (false, q) := by
  obtain ⟨h, member, same⟩ := held
  have equal : (Hit.mk call.1 (call.2.rehomed call.1.handle)).order h = .eq := order_same.mpr same.symm
  rw [addHit, place_held ranked member equal]

theorem addHit_new {q : Query} {call : Document × Note} (fresh : ¬ q.Holds (callRank call)) :
    (q.addHit call.1 call.2).1 = true
      ∧ (q.addHit call.1 call.2).2.hits.Perm (⟨call.1, call.2.rehomed call.1.handle⟩ :: q.hits) := by
  apply place_new
  intro h member same
  exact fresh ⟨h, member, (order_same.mp same).symm⟩

theorem addHit_holds {q : Query} (ranked : Ranked q.hits) (call : Document × Note) (r : Rank) :
    (q.addHit call.1 call.2).2.Holds r ↔ q.Holds r ∨ callRank call = r := by
  by_cases held : q.Holds (callRank call)
  · rw [addHit_held ranked held]
    constructor
    · exact .inl
    · rintro (old | rfl)
      · exact old
      · exact held
  · have added := (addHit_new held).2
    constructor
    · rintro ⟨h, member, rfl⟩
      rcases List.mem_cons.mp (added.mem_iff.mp member) with rfl | old
      · exact .inr rfl
      · exact .inl ⟨h, old, rfl⟩
    · rintro (⟨h, old, rfl⟩ | rfl)
      · exact ⟨h, added.mem_iff.mpr (List.mem_cons_of_mem _ old), rfl⟩
      · exact ⟨_, added.mem_iff.mpr List.mem_cons_self, rfl⟩

-- Calls leave the hits in ranking order, with the ranks that were held and those that were called for.
theorem addAll_ranked {q : Query} (ranked : Ranked q.hits) (calls : List (Document × Note)) :
    Ranked (q.addAll calls).hits ∧ ∀ r, (q.addAll calls).Holds r ↔ q.Holds r ∨ r ∈ calls.map callRank := by
  induction calls generalizing q with
  | nil => exact ⟨ranked, by simp [addAll]⟩
  | cons call rest ih =>
    obtain ⟨order, held⟩ := ih (q := (q.addHit call.1 call.2).2) (place_ranked ranked)
    refine ⟨order, fun r => (held r).trans ?_⟩
    rw [addHit_holds ranked, List.map_cons, List.mem_cons, or_assoc, eq_comm]

theorem ranks_ahead (ranked : Ranked hits) : (hits.map rank).Pairwise Rank.Ahead :=
  List.pairwise_map.mpr (ranked.imp order_ahead.mp)

theorem ranks_nodup (ranked : Ranked hits) : (hits.map rank).Nodup := by
  refine List.pairwise_map.mpr (ranked.imp ?_)
  intro a b before same
  rw [order_same.mpr same] at before
  cases before

theorem mem_ranks {q : Query} {r : Rank} : r ∈ q.hits.map rank ↔ q.Holds r := List.mem_map

-- In ranking order a list of ranks is determined by its members.
theorem ranks_unique {p q : Query} (left : Ranked p.hits) (right : Ranked q.hits)
    (same : ∀ r, p.Holds r ↔ q.Holds r) : p.hits.map rank = q.hits.map rank := by
  have held : (p.hits.map rank).Perm (q.hits.map rank) := by
    refine (List.perm_ext_iff_of_nodup (ranks_nodup left) (ranks_nodup right)).mpr ?_
    intro r
    rw [mem_ranks, mem_ranks, same r]
  refine List.Perm.eq_of_pairwise ?_ (ranks_ahead left) (ranks_ahead right) held
  intro x y x_in y_in before behind
  obtain ⟨a, _, rfl⟩ := List.mem_map.mp x_in
  obtain ⟨b, _, rfl⟩ := List.mem_map.mp y_in
  have after := Std.OrientedCmp.gt_of_lt (order_ahead.mpr before)
  rw [order_ahead.mpr behind] at after
  cases after

-- A query as it starts, answered by calls in their order.
def answered (d : Document) (calls : List (Document × Note)) : Query := (Query.mk d []).addAll calls

theorem answered_ranked (d : Document) (calls : List (Document × Note)) :
    Ranked (answered d calls).hits ∧ ∀ r, (answered d calls).Holds r ↔ r ∈ calls.map callRank := by
  obtain ⟨ranked, held⟩ := addAll_ranked (q := ⟨d, []⟩) .nil calls
  refine ⟨ranked, fun r => (held r).trans ?_⟩
  simp [Holds]

-- The order is total, and of several hits with one rank only the first that came is held.
theorem answered_ranks (d : Document) (calls : List (Document × Note)) :
    (Std.TransCmp Hit.order
        ∧ ∀ a b : Hit, (a.order b = .lt ↔ a.rank.Ahead b.rank) ∧ (a.order b = .eq ↔ a.rank = b.rank))
      ∧ ((answered d calls).hits.map rank).Pairwise Rank.Ahead
      ∧ (∀ call : Document × Note,
          ((answered d calls).Holds (callRank call) →
            (answered d calls).addHit call.1 call.2 = (false, answered d calls))
          ∧ (¬ (answered d calls).Holds (callRank call) →
            ((answered d calls).addHit call.1 call.2).1 = true
              ∧ ((answered d calls).addHit call.1 call.2).2.hits.Perm
                (⟨call.1, call.2.rehomed call.1.handle⟩ :: (answered d calls).hits)))
      ∧ (answered d calls).hits.length = (calls.map callRank).dedup.length
      ∧ (∀ source, ((answered d calls).hitsBySource source).Sublist (answered d calls).hits
          ∧ ∀ h, h ∈ (answered d calls).hitsBySource source
            ↔ h ∈ (answered d calls).hits ∧ h.note.source = source)
      ∧ ∀ others, calls.Perm others → (answered d others).hits.map rank = (answered d calls).hits.map rank := by
  obtain ⟨ranked, held⟩ := answered_ranked d calls
  refine ⟨⟨inferInstance, fun a b => ⟨order_ahead, order_same⟩⟩, ranks_ahead ranked, ?_, ?_, ?_, ?_⟩
  · exact fun call => ⟨addHit_held ranked, addHit_new⟩
  · have counted : ((answered d calls).hits.map rank).Perm (calls.map callRank).dedup := by
      refine (List.perm_ext_iff_of_nodup (ranks_nodup ranked) (List.nodup_dedup _)).mpr ?_
      intro r
      rw [mem_ranks, held, List.mem_dedup]
    rw [← counted.length_eq, List.length_map]
  · intro source
    refine ⟨List.filter_sublist, fun h => ?_⟩
    rw [hitsBySource, List.mem_filter, beq_iff_eq]
  · intro others same
    obtain ⟨others_ranked, others_held⟩ := answered_ranked d others
    apply ranks_unique others_ranked ranked
    intro r
    rw [others_held, held, (same.map callRank).mem_iff]

-- Both zeros, no number, an infinity, two documents with the same score, and one call made twice.
def scored (relevance : Binary .double) (id : NoteId) : Note :=
  ((NoteBody.plain .relevance .pred .origin).named id).withConfidence relevance

def mixedCalls : List (Document × Note) :=
  [(.empty ⟨2⟩, scored .nan ⟨1⟩), (.empty ⟨2⟩, scored (.ofWord false 0) ⟨1⟩),
    (.empty ⟨1⟩, scored (.ofWord true 0) ⟨2⟩), (.empty ⟨1⟩, scored (.ofWord true Format.double.top) ⟨2⟩),
    (.empty ⟨1⟩, scored (.ofWord false 0) ⟨3⟩), (.empty ⟨2⟩, scored (.ofWord false 0) ⟨1⟩)]

def mixedRanks : List Rank :=
  [⟨.ofWord false 0, ⟨1⟩, ⟨3⟩⟩, ⟨.ofWord false 0, ⟨2⟩, ⟨1⟩⟩, ⟨.ofWord true 0, ⟨1⟩, ⟨2⟩⟩,
    ⟨.ofWord true Format.double.top, ⟨1⟩, ⟨2⟩⟩, ⟨.nan, ⟨2⟩, ⟨1⟩⟩]

theorem mixedCalls_ranks : mixedCalls.Perm mixedCalls.reverse
    ∧ (answered (.empty ⟨3⟩) mixedCalls).hits.map rank = mixedRanks
    ∧ (answered (.empty ⟨3⟩) mixedCalls.reverse).hits.map rank = mixedRanks
    ∧ (answered (.empty ⟨3⟩) mixedCalls).addHit (.empty ⟨1⟩) (scored (.ofWord true 0) ⟨2⟩)
      = (false, answered (.empty ⟨3⟩) mixedCalls) := by
  obtain ⟨_, _, added, _, _, reordered⟩ := answered_ranks (.empty ⟨3⟩) mixedCalls
  have backwards : mixedCalls.Perm mixedCalls.reverse := (List.reverse_perm mixedCalls).symm
  have listed : (answered (.empty ⟨3⟩) mixedCalls).hits.map rank = mixedRanks := by decide
  have held : (answered (.empty ⟨3⟩) mixedCalls).Holds (callRank (.empty ⟨1⟩, scored (.ofWord true 0) ⟨2⟩)) :=
    mem_ranks.mp (listed ▸ by decide)
  exact ⟨backwards, listed, (reordered _ backwards).trans listed, (added _).1 held⟩

end Query

end Marginalia
