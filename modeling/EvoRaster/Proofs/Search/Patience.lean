import EvoRaster.Proofs.Search.Champion

/-!
Contract: patience, as the history of a run tells it.

Owns:
- `Patience.improvesAt` and `Patience.spent`, which say of a list of errors where it improves and when it has not
  improved for too long;
- `Patience.Stops`, the number of generations after which a run with these errors stops;
- `Patience.Counts`, what the count of generations without improvement says of the errors, and `Counts.next`, by
  which it goes on doing so;
- `Advances.stale_eq`, by which a run counts in this way.

The run compares the champion of each generation with the champion before. The history knows nothing of champions,
only of the best error of each generation.
-/

namespace EvoRaster

namespace Patience

variable {errors : List Float} {position count stale limit : Nat}

/-- The error is below all errors before it. The first one always is. -/
def improvesAt (errors : List Float) (position : Nat) : Bool :=
  errors[position]?.any fun error => (errors.take position).all fun earlier => error < earlier

/-- None of the last `limit` of the first `count` errors is below all errors before it. -/
def spent (errors : List Float) (limit count : Nat) : Bool :=
  limit ≤ count && (List.range' (count - limit) limit).all fun position => !improvesAt errors position

/-- A run with these errors stops after `count` generations: after all of them, unless patience has a limit and is
spent before. -/
structure Stops (errors : List Float) (generations : Nat) (patience : Option Nat) (count : Nat) : Prop where
  le : count ≤ generations
  ends : count = generations ∨ ∃ limit ∈ patience, spent errors limit count
  first : ∀ limit ∈ patience, ∀ earlier < count, ¬spent errors limit earlier

theorem improvesAt_iff {error : Float} (here : errors[position]? = some error) :
    improvesAt errors position ↔ ∀ earlier ∈ errors.take position, error < earlier := by
  simp [improvesAt, here]

theorem spent_iff :
    spent errors limit count ↔ limit ≤ count ∧
      ∀ position, count - limit ≤ position → position < count → ¬improvesAt errors position := by
  unfold spent
  rw [Bool.and_eq_true, decide_eq_true_iff, List.all_eq_true]
  refine and_congr_right fun enough => ?_
  simp only [List.mem_range'_1, Nat.sub_add_cancel enough, and_imp, Bool.not_eq_true', Bool.not_eq_true]

/-- The first error improves, so patience outlasts one generation more than its limit. -/
theorem spent_lt (recorded : count ≤ errors.length) (least : 1 ≤ limit) (out : spent errors limit count) :
    limit < count := by
  obtain ⟨enough, idle⟩ := spent_iff.mp out
  by_contra short
  have first : errors[0]? = some errors[0] := List.getElem?_eq_getElem (by omega)
  exact idle 0 (by omega) (by omega) ((improvesAt_iff first).mpr (by simp))

/-- After `count` generations, `stale` have passed since the last improvement. -/
structure Counts (errors : List Float) (count stale : Nat) : Prop where
  le : stale ≤ count
  idle : ∀ position, count - stale ≤ position → position < count → ¬improvesAt errors position
  last : stale < count → improvesAt errors (count - 1 - stale)

theorem counts_zero : Counts errors 0 0 :=
  ⟨Nat.le_refl 0, fun _ _ below => absurd below (Nat.not_lt_zero _), nofun⟩

/-- An improvement starts the count anew, and another generation without one adds to it. -/
theorem Counts.next (counts : Counts errors count stale) :
    Counts errors (count + 1) (if improvesAt errors count then 0 else stale + 1) := by
  have le := counts.le
  by_cases improves : improvesAt errors count
  · rw [if_pos improves]
    exact ⟨Nat.zero_le _, fun _ _ _ => by omega, fun _ => improves⟩
  · rw [if_neg improves]
    refine ⟨Nat.succ_le_succ le, fun position after before => ?_, fun more => ?_⟩
    · obtain rfl | earlier : position = count ∨ position < count := by omega
      · exact improves
      · exact counts.idle position (by omega) earlier
    · rw [show count + 1 - 1 - (stale + 1) = count - 1 - stale by omega]
      exact counts.last (by omega)

/-- Patience is spent when the count has reached the limit. -/
theorem Counts.spent_iff (counts : Counts errors count stale) :
    spent errors limit count ↔ limit ≤ stale := by
  have le := counts.le
  rw [Patience.spent_iff]
  constructor
  · intro out
    obtain ⟨enough, idle⟩ := out
    by_contra short
    exact idle (count - 1 - stale) (by omega) (by omega) (counts.last (by omega))
  · intro enough
    exact ⟨by omega, fun position after before => counts.idle position (by omega) before⟩

end Patience

namespace Run

variable {initial run after : Run} {log : List (List Champion)} {bests candidates : List Champion}
  {best : Champion} {stops : Bool} {number : Nat}

theorem Advances.history (advances : Advances number run candidates best stops after) :
    after.search.history = (run.search.settled number candidates best).history := by
  cases advances with
  | stops settled => rw [settled.search]
  | @goesOn ready population source settled =>
      change ready.search.history = _
      rw [settled.search]

theorem Advances.champion (advances : Advances number run candidates best stops after) :
    after.search.champion = (run.search.settled number candidates best).champion := by
  cases advances with
  | stops settled => rw [settled.search]
  | @goesOn ready population source settled =>
      change ready.search.champion = _
      rw [settled.search]

theorem Advances.stale (advances : Advances number run candidates best stops after) :
    after.stale = run.staleAfter best := by
  cases advances with
  | stops _ stale => exact stale
  | goesOn _ stale => exact stale

/-- The run stops if patience has run out, and only then. -/
theorem Advances.stops_iff (advances : Advances number run candidates best stops after) :
    stops = true ↔ after.OutOfPatience := by
  cases advances with
  | stops _ _ spent => exact iff_of_true rfl spent
  | goesOn _ _ patient => exact iff_of_false Bool.false_ne_true patient

/-- A generation beats the champion if its error improves on the history. -/
theorem Advances.better_iff (advances : Advances number run candidates best stops after)
    (records : Records initial log bests run) {errors later : List Float}
    (recorded : after.search.history.toList.map HistoryEntry.bestError ++ later = errors) :
    best.error < run.search.bestError ↔ Patience.improvesAt errors log.length := by
  have counted : (bests.map Champion.error).length = log.length := by
    rw [List.length_map, records.leaders.length_eq]
  have finite := Search.finite_of_candidates advances.completed.known best advances.completed.best_mem
  have split : errors = bests.map Champion.error ++ best.error :: later := by
    rw [← recorded, advances.history, ← records.history]
    simp [Search.settled]
  have here : errors[log.length]? = some best.error := by
    rw [split, ← counted, List.getElem?_append_right (Nat.le_refl _), Nat.sub_self, List.getElem?_cons_zero]
  rw [Patience.improvesAt_iff here, split, ← counted, List.take_left,
    records.leads.better_iff (Champion.numbers_of_leaders records.leaders records.numbers) finite,
    List.forall_mem_map]

end Run

end EvoRaster
