import Mathlib.Data.List.Forall2

/-!
Contract: outcomes of steps that can fail.

A step that fails ends a sequence of steps with its own cause. A step that succeeds hands its value to the
next.
-/

namespace EvoRaster

variable {ε ε' α β : Type}

@[simp] theorem ok_bind (value : α) (next : α → Except ε β) : (.ok value >>= next) = next value := rfl

@[simp] theorem error_bind (cause : ε) (next : α → Except ε β) :
    (.error cause >>= next) = .error cause := rfl

@[simp] theorem map_ok (change : α → β) (value : α) :
    (.ok value : Except ε α).map change = .ok (change value) := rfl

@[simp] theorem map_error (change : α → β) (cause : ε) :
    (.error cause : Except ε α).map change = .error cause := rfl

@[simp] theorem mapError_ok (change : ε → ε') (value : α) :
    (.ok value : Except ε α).mapError change = .ok value := rfl

@[simp] theorem mapError_error (change : ε → ε') (cause : ε) :
    (.error cause : Except ε α).mapError change = .error (change cause) := rfl

theorem mapError_eq_ok_iff {change : ε → ε'} {outcome : Except ε α} {value : α} :
    outcome.mapError change = .ok value ↔ outcome = .ok value := by
  cases outcome <;> simp

theorem map_eq_ok_iff {change : α → β} {outcome : Except ε α} {result : β} :
    outcome.map change = .ok result ↔ ∃ value, outcome = .ok value ∧ change value = result := by
  cases outcome <;> simp

theorem map_eq_error_iff {change : α → β} {outcome : Except ε α} {cause : ε} :
    outcome.map change = .error cause ↔ outcome = .error cause := by
  cases outcome <;> simp

theorem bind_eq_ok_iff {first : Except ε α} {next : α → Except ε β} {result : β} :
    first >>= next = .ok result ↔ ∃ value, first = .ok value ∧ next value = .ok result := by
  cases first <;> simp

theorem map_bind (first : Except ε α) (next : α → Except ε β) {γ : Type} (change : β → γ) :
    (first >>= next).map change = first >>= fun value => (next value).map change := by
  cases first <;> rfl

theorem bind_assoc (first : Except ε α) (next : α → Except ε β) {γ : Type} (last : β → Except ε γ) :
    (first >>= next) >>= last = first >>= fun value => next value >>= last := by
  cases first <;> rfl

/-! ## One step for each item of a list -/

section MapM

variable {items : List α} {step : α → Except ε β}

theorem mapM_cons (item : α) (rest : List α) :
    (item :: rest).mapM step = step item >>= fun result =>
      rest.mapM step >>= fun results => .ok (result :: results) := List.mapM_cons

theorem mapM_isOk_iff :
    (∃ results, items.mapM step = .ok results) ↔ ∀ item ∈ items, ∃ result, step item = .ok result := by
  induction items with
  | nil => exact ⟨fun _ item member => absurd member List.not_mem_nil, fun _ => ⟨[], rfl⟩⟩
  | cons first rest inductionHypothesis =>
      rw [mapM_cons, List.forall_mem_cons, ← inductionHypothesis]
      cases step first with
      | error cause => simp
      | ok result =>
          cases rest.mapM step with
          | error cause => simp
          | ok results => simp

theorem mapM_cons_ok {item : α} {rest : List α} {results : List β}
    (mapped : (item :: rest).mapM step = .ok results) :
    ∃ result others, step item = .ok result ∧ rest.mapM step = .ok others ∧
      results = result :: others := by
  rw [mapM_cons] at mapped
  cases one : step item with
  | error cause => rw [one] at mapped; cases mapped
  | ok result =>
      cases remaining : rest.mapM step with
      | error cause => rw [one, remaining] at mapped; cases mapped
      | ok others =>
          rw [one, remaining] at mapped
          cases mapped
          exact ⟨result, others, rfl, rfl, rfl⟩

theorem forall₂_of_mapM {results : List β} (mapped : items.mapM step = .ok results) :
    List.Forall₂ (fun item result => step item = .ok result) items results := by
  induction items generalizing results with
  | nil =>
      cases mapped
      exact .nil
  | cons first rest inductionHypothesis =>
      obtain ⟨result, others, one, remaining, rfl⟩ := mapM_cons_ok mapped
      exact .cons one (inductionHypothesis remaining)

theorem mapM_map {γ : Type} (change : β → γ) :
    (items.mapM fun item => (step item).map change) = (items.mapM step).map (List.map change) := by
  induction items with
  | nil => rfl
  | cons first rest inductionHypothesis =>
      rw [mapM_cons, mapM_cons, inductionHypothesis]
      cases step first with
      | error cause => rfl
      | ok result => cases rest.mapM step <;> rfl

/-- If there is one way to fail and an item fails, the whole list fails in this way. -/
theorem mapM_error {cause : ε}
    (each : ∀ item ∈ items, (∃ result, step item = .ok result) ∨ step item = .error cause)
    (failing : ∃ item ∈ items, step item = .error cause) : items.mapM step = .error cause := by
  induction items with
  | nil =>
      rcases failing with ⟨item, member, -⟩
      cases member
  | cons first rest inductionHypothesis =>
      rw [mapM_cons]
      rcases each first List.mem_cons_self with ⟨result, one⟩ | one
      · rcases failing with ⟨item, member, fails⟩
        rcases List.mem_cons.mp member with rfl | later
        · rw [one] at fails
          cases fails
        · have rest := inductionHypothesis (fun item later => each item (List.mem_cons_of_mem _ later))
            ⟨item, later, fails⟩
          rw [one, ok_bind, rest, error_bind]
      · rw [one, error_bind]

/-- A list fails with the cause of its first item that fails. -/
theorem exists_of_mapM_error {cause : ε} (failed : items.mapM step = .error cause) :
    ∃ before item after, items = before ++ item :: after ∧
      (∀ earlier ∈ before, ∃ result, step earlier = .ok result) ∧ step item = .error cause := by
  induction items with
  | nil => cases failed
  | cons first rest inductionHypothesis =>
      rw [mapM_cons] at failed
      cases one : step first with
      | error cause' =>
          rw [one] at failed
          cases failed
          exact ⟨[], first, rest, rfl, nofun, one⟩
      | ok result =>
          rw [one, ok_bind] at failed
          cases remaining : rest.mapM step with
          | ok results =>
              rw [remaining] at failed
              cases failed
          | error cause' =>
              rw [remaining] at failed
              cases failed
              obtain ⟨before, item, after, rfl, earlier, fails⟩ := inductionHypothesis remaining
              exact ⟨first :: before, item, after, rfl, List.forall_mem_cons.mpr ⟨⟨result, one⟩, earlier⟩, fails⟩

/-- Items for which the step always succeeds have no part in a failure. -/
theorem mapM_filter_error_iff {keep : α → Bool}
    (safe : ∀ item, keep item = false → ∃ result, step item = .ok result) {cause : ε} :
    (items.filter keep).mapM step = .error cause ↔ items.mapM step = .error cause := by
  induction items with
  | nil => rfl
  | cons first rest inductionHypothesis =>
      have later : ∀ (result : β) (outcome : Except ε (List β)),
          (outcome >>= fun results => .ok (result :: results)) = Except.error cause ↔ outcome = .error cause := by
        rintro result (_ | results) <;> simp
      cases kept : keep first with
      | true =>
          rw [List.filter_cons_of_pos kept, mapM_cons, mapM_cons]
          cases step first with
          | error cause' => rfl
          | ok result => rw [ok_bind, ok_bind, later, later, inductionHypothesis]
      | false =>
          obtain ⟨result, one⟩ := safe first kept
          rw [List.filter_cons_of_neg (by simp [kept]), mapM_cons, one, ok_bind, later, inductionHypothesis]

end MapM

end EvoRaster
