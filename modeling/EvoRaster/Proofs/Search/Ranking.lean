import EvoRaster.Proofs.Outcome.Except
import EvoRaster.Proofs.Precision.Order
import EvoRaster.Search.State

/-!
Contract: candidates, the programs of a generation with their errors, and their order.

Owns:
- `Champion.individual`, the evaluated individual of a candidate, and `ranked_individuals`, by which a population
  of them is ranked as the candidates are;
- `FirstBest`, the first of the best candidates, which stands at the head of the ranking;
- `FirstBest.flatten`, by which the first best of the first best is the first best of all;
- `getElem_le_of_perm`: whatever others join them, the ranks of candidates do not get worse.

A candidate is a program with a known error, as the champion is. Errors are numbers here, as they always are
when they are known.
-/

namespace EvoRaster

open Numeric

/-! ## The order of errors -/

section Order

variable {left middle right : Float}

theorem errorAtMost_of_isNumber (isNumber : IsNumber right) :
    errorAtMost left right = true ↔ left ≤ right := by
  rw [errorAtMost, isNumber, Bool.false_or, decide_eq_true_iff]

theorem errorAtMost_of_not_isNumber (undefined : ¬IsNumber right) : errorAtMost left right = true := by
  rw [errorAtMost, Bool.eq_true_of_not_eq_false undefined, Bool.true_or]

/-- The undefined error stands after all others, and after itself. -/
private theorem isNumber_of_errorAtMost (ordered : errorAtMost left right = true) (isNumber : IsNumber right) :
    IsNumber left :=
  (le_iff_valueOf.mp ((errorAtMost_of_isNumber isNumber).mp ordered)).1

theorem errorAtMost_total (left right : Float) :
    (errorAtMost left right || errorAtMost right left) = true := by
  rw [Bool.or_eq_true]
  by_cases isNumber : IsNumber left
  · by_cases isNumber' : IsNumber right
    · rw [errorAtMost_of_isNumber isNumber, errorAtMost_of_isNumber isNumber']
      by_cases less : left < right
      · exact .inl (Double.le_of_lt less)
      · exact .inr (Double.le_of_not_lt isNumber isNumber' less)
    · exact .inl (errorAtMost_of_not_isNumber isNumber')
  · exact .inr (errorAtMost_of_not_isNumber isNumber)

theorem errorAtMost_trans (left middle right : Float) (first : errorAtMost left middle = true)
    (second : errorAtMost middle right = true) : errorAtMost left right = true := by
  by_cases isNumber : IsNumber right
  · have isNumber' := isNumber_of_errorAtMost second isNumber
    rw [errorAtMost_of_isNumber isNumber] at second ⊢
    rw [errorAtMost_of_isNumber isNumber'] at first
    exact Double.le_trans first second
  · exact errorAtMost_of_not_isNumber isNumber

end Order

/-! ## Candidates -/

namespace Champion

/-- The individual of a candidate, as an evaluation leaves it. -/
def individual (candidate : Champion) : Individual :=
  { program := candidate.program, error := some candidate.error }

/-- The order of ranking. -/
def atMost (left right : Champion) : Bool := errorAtMost left.error right.error

/-- Candidates in the order of their errors; of equal ones the earlier candidate stays first. -/
def ranked (candidates : List Champion) : List Champion := candidates.mergeSort atMost

/-- A population of evaluated individuals is ranked as its candidates are. -/
theorem ranked_individuals (candidates : List Champion) :
    Population.ranked (candidates.map individual) = .ok ((ranked candidates).map individual) := by
  have keyed : (candidates.map individual).mapM (fun individual => do
      return (← individual.knownError, individual)) =
        Except.ok (ε := PopulationError)
          (candidates.map fun candidate => (candidate.error, candidate.individual)) := by
    induction candidates with
    | nil => rfl
    | cons first rest inductionHypothesis =>
        rw [List.map_cons, mapM_cons, inductionHypothesis]
        rfl
  have sorted := List.map_mergeSort (r := atMost) (l := candidates)
    (f := fun candidate => (candidate.error, candidate.individual))
    (s := fun left right => errorAtMost left.1 right.1) (by intros; rw [atMost])
  rw [Population.ranked, keyed, ok_bind, ← sorted, List.map_map]
  rfl

/-! ## Ranks -/

variable {candidates : List Champion}

/-- All errors are known numbers. -/
def Numbers (candidates : List Champion) : Prop := ∀ candidate ∈ candidates, IsNumber candidate.error

theorem ranked_perm (candidates : List Champion) : (ranked candidates).Perm candidates :=
  List.mergeSort_perm candidates atMost

theorem length_ranked (candidates : List Champion) : (ranked candidates).length = candidates.length :=
  (ranked_perm candidates).length_eq

theorem exists_ranked (populated : candidates ≠ []) : ∃ best others, ranked candidates = best :: others := by
  apply List.exists_cons_of_ne_nil
  rw [← List.length_pos_iff, length_ranked]
  exact List.length_pos_iff.mpr populated

theorem atMost_trans (left middle right : Champion) (first : atMost left middle = true)
    (second : atMost middle right = true) : atMost left right = true :=
  errorAtMost_trans left.error middle.error right.error first second

theorem atMost_total (left right : Champion) : (atMost left right || atMost right left) = true :=
  errorAtMost_total left.error right.error

theorem ranked_pairwise (numbers : Numbers candidates) :
    (ranked candidates).Pairwise fun left right => left.error ≤ right.error := by
  have sorted := List.pairwise_mergeSort atMost_trans atMost_total candidates
  apply sorted.imp_of_mem
  intro left right _ member ordered
  exact (errorAtMost_of_isNumber (numbers right ((ranked_perm candidates).mem_iff.mp member))).mp ordered

/-- The first of the best candidates: the earlier ones are worse, and the later ones are not better. -/
def FirstBest (candidates : List Champion) (best : Champion) : Prop :=
  ∃ earlier later, candidates = earlier ++ best :: later ∧
    (∀ candidate ∈ earlier, best.error < candidate.error) ∧
    ∀ candidate ∈ later, best.error ≤ candidate.error

/-- The first of the best candidates stands at the head of the ranking. -/
theorem firstBest_of_ranked {best : Champion} {others : List Champion} (numbers : Numbers candidates)
    (sorted : ranked candidates = best :: others) : FirstBest candidates best := by
  induction candidates generalizing best others with
  | nil => simp [ranked] at sorted
  | cons first rest inductionHypothesis =>
      have isNumber := List.forall_mem_cons.mp numbers
      have ordered := ranked_pairwise numbers
      obtain ⟨before, after, inserted, remaining, worse⟩ :=
        List.mergeSort_cons atMost_trans atMost_total first rest
      rw [ranked] at sorted ordered
      cases before with
      | nil =>
          obtain ⟨rfl, -⟩ := List.cons.inj (inserted.symm.trans sorted)
          rw [List.nil_append] at inserted remaining
          rw [inserted] at ordered
          refine ⟨[], rest, rfl, by simp, fun candidate later => ?_⟩
          have found : candidate ∈ after := by
            rw [← remaining]
            exact List.mem_mergeSort.mpr later
          exact (List.pairwise_cons.mp ordered).1 candidate found
      | cons head before =>
          obtain ⟨rfl, -⟩ := List.cons.inj (inserted.symm.trans sorted)
          obtain ⟨earlier, later, rfl, above, notBelow⟩ := inductionHypothesis isNumber.2 remaining
          refine ⟨first :: earlier, later, rfl, List.forall_mem_cons.mpr ⟨?_, above⟩, notBelow⟩
          have headNumber : IsNumber head.error := isNumber.2 head (by simp)
          by_contra notLess
          have ahead := Double.le_of_not_lt headNumber isNumber.1 notLess
          have behind := worse head List.mem_cons_self
          rw [atMost, (errorAtMost_of_isNumber headNumber).mpr ahead] at behind
          cases behind

section FirstBest

variable {best new : Champion}

theorem FirstBest.mem (first : FirstBest candidates best) : best ∈ candidates := by
  obtain ⟨earlier, later, rfl, -⟩ := first
  simp

/-- No candidate is better than the first best. -/
theorem FirstBest.le (first : FirstBest candidates best) (numbers : Numbers candidates) :
    ∀ candidate ∈ candidates, best.error ≤ candidate.error := by
  have isNumber := numbers best first.mem
  obtain ⟨earlier, later, rfl, above, notBelow⟩ := first
  intro candidate member
  obtain before | same | after : candidate ∈ earlier ∨ candidate = best ∨ candidate ∈ later := by
    simpa using member
  · exact Double.le_of_lt (above candidate before)
  · rw [same]
    exact Double.le_refl isNumber
  · exact notBelow candidate after

/-- A candidate that is better than all before it takes the place of the first best. -/
theorem firstBest_append_better (better : ∀ candidate ∈ candidates, new.error < candidate.error) :
    FirstBest (candidates ++ [new]) new := ⟨candidates, [], rfl, better, by simp⟩

theorem FirstBest.append_worse (first : FirstBest candidates best) (worse : best.error ≤ new.error) :
    FirstBest (candidates ++ [new]) best := by
  obtain ⟨earlier, later, rfl, above, notBelow⟩ := first
  refine ⟨earlier, later ++ [new], by simp, above, ?_⟩
  simpa [or_imp, forall_and] using ⟨notBelow, worse⟩

/-- No candidate is better than the first best of its list. -/
private theorem exists_leader {groups : List (List Champion)} {bests : List Champion}
    (each : List.Forall₂ FirstBest groups bests) (numbers : ∀ group ∈ groups, Numbers group)
    {candidate : Champion} (member : candidate ∈ groups.flatten) :
    ∃ leader ∈ bests, leader.error ≤ candidate.error := by
  induction each with
  | nil => simp at member
  | cons leads each inductionHypothesis =>
      rw [List.forall_mem_cons] at numbers
      rw [List.flatten_cons, List.mem_append] at member
      obtain here | later := member
      · exact ⟨_, List.mem_cons_self, leads.le numbers.1 candidate here⟩
      · obtain ⟨leader, found, atMost⟩ := inductionHypothesis numbers.2 later
        exact ⟨leader, List.mem_cons_of_mem _ found, atMost⟩

/-- The first best of the first best of several lists is the first best of all their candidates. -/
theorem FirstBest.flatten {groups : List (List Champion)} {bests : List Champion}
    (each : List.Forall₂ FirstBest groups bests) (numbers : ∀ group ∈ groups, Numbers group)
    (first : FirstBest bests best) : FirstBest groups.flatten best := by
  induction each with
  | nil =>
      obtain ⟨earlier, later, empty, -⟩ := first
      simp at empty
  | @cons group leader groups leaders leads each inductionHypothesis =>
      rw [List.forall_mem_cons] at numbers
      obtain ⟨earlier, later, split, above, notBelow⟩ := first
      cases earlier with
      | nil =>
          obtain ⟨rfl, rfl⟩ := List.cons.inj split
          obtain ⟨before, after, rfl, above', notBelow'⟩ := leads
          refine ⟨before, after ++ groups.flatten, by simp, above', fun candidate member => ?_⟩
          obtain here | later := List.mem_append.mp member
          · exact notBelow' candidate here
          · obtain ⟨leader, found, atMost⟩ := exists_leader each numbers.2 later
            exact Double.le_trans (notBelow leader found) atMost
      | cons head earlier =>
          obtain ⟨rfl, rfl⟩ := List.cons.inj split
          rw [List.forall_mem_cons] at above
          obtain ⟨before, after, flat, above', notBelow'⟩ :=
            inductionHypothesis numbers.2 ⟨earlier, later, rfl, above.2, notBelow⟩
          refine ⟨group ++ before, after, by simp [flat], fun candidate member => ?_, notBelow'⟩
          obtain here | later := List.mem_append.mp member
          · exact Double.lt_of_lt_of_le above.1 (leads.le numbers.1 candidate here)
          · exact above' candidate later

end FirstBest

/-! ## Ranks among others -/

/-- In an ordered list no rank is worse than in an ordered list of some of its members. -/
theorem getElem_le_of_perm {sorted kept others : List Champion} (numbers : Numbers sorted)
    (ordered : sorted.Pairwise fun left right => left.error ≤ right.error)
    (orderedKept : kept.Pairwise fun left right => left.error ≤ right.error)
    (same : sorted.Perm (kept ++ others)) {rank : Nat} (inside : rank < kept.length)
    (inside' : rank < sorted.length) : sorted[rank].error ≤ kept[rank].error := by
  by_contra worse
  let good : Champion → Bool := fun candidate => candidate.error ≤ kept[rank].error
  have member : kept[rank] ∈ sorted := same.mem_iff.mpr (List.mem_append_left _ (List.getElem_mem inside))
  -- Among the members that were kept, the first ones up to this rank are good.
  have many : rank + 1 ≤ kept.countP good := by
    have all : ∀ candidate ∈ kept.take (rank + 1), good candidate = true := by
      intro candidate taken
      obtain ⟨position, within, rfl⟩ := List.mem_iff_getElem.mp taken
      rw [List.length_take] at within
      rw [List.getElem_take]
      apply decide_eq_true
      obtain earlier | rfl : position < rank ∨ position = rank := by omega
      · exact List.pairwise_iff_getElem.mp orderedKept position rank _ inside earlier
      · exact Double.le_refl (numbers _ member)
    calc rank + 1 = (kept.take (rank + 1)).countP good := by
          rw [List.countP_eq_length.mpr all, List.length_take]
          omega
      _ ≤ kept.countP good := (List.take_sublist _ _).countP_le
  -- In the ordered list none from this rank on is good.
  have few : sorted.countP good ≤ rank := by
    have none : ∀ candidate ∈ sorted.drop rank, ¬good candidate = true := by
      have rest := ordered.sublist (List.drop_sublist rank sorted)
      rw [List.drop_eq_getElem_cons inside'] at rest ⊢
      intro candidate dropped isGood
      have better : candidate.error ≤ kept[rank].error := of_decide_eq_true isGood
      obtain rfl | later := List.mem_cons.mp dropped
      · exact worse better
      · exact worse (Double.le_trans ((List.pairwise_cons.mp rest).1 candidate later) better)
    calc sorted.countP good = (sorted.take rank).countP good + (sorted.drop rank).countP good := by
          rw [← List.countP_append, List.take_append_drop]
      _ = (sorted.take rank).countP good := by rw [List.countP_eq_zero.mpr none, Nat.add_zero]
      _ ≤ (sorted.take rank).length := List.countP_le_length
      _ ≤ rank := List.length_take_le _ _
  have counted : sorted.countP good = kept.countP good + others.countP good := by
    rw [same.countP_eq, List.countP_append]
  omega

end Champion

end EvoRaster
