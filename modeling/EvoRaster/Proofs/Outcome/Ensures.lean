/-!
Contract: what a computation that changes a state and can fail guarantees.

Owns:
- `Ensures`, a guarantee about the value and about the state in the case of success and of failure;
- one rule for each way in which such computations are put together.

A computation fails with a state too. What was done before the failure stays done.
-/

namespace EvoRaster

variable {ε ε' σ α β : Type}

/-! ## Single runs -/

section Runs

variable {action : ExceptT ε (StateM σ) α} {next : α → ExceptT ε (StateM σ) β} {start state : σ}

theorem bind_of_ok {value : α} (ended : action start = (.ok value, state)) :
    (action >>= next) start = next value state := by
  change ExceptT.bindCont next (action start).1 (action start).2 = _
  rw [ended]
  rfl

theorem bind_of_error {cause : ε} (ended : action start = (.error cause, state)) :
    (action >>= next) start = (.error cause, state) := by
  change ExceptT.bindCont next (action start).1 (action start).2 = _
  rw [ended]
  rfl

theorem bind_congr {other : ExceptT ε (StateM σ) α} {between : σ} (same : action start = other between) :
    (action >>= next) start = (other >>= next) between := by
  change ExceptT.bindCont next (action start).1 (action start).2 =
    ExceptT.bindCont next (other between).1 (other between).2
  rw [same]

theorem map_of_ok {change : α → β} {value : α} (ended : action start = (.ok value, state)) :
    (change <$> action) start = (.ok (change value), state) := by
  rw [map_eq_pure_bind]
  exact bind_of_ok ended

theorem map_of_error {change : α → β} {cause : ε} (ended : action start = (.error cause, state)) :
    (change <$> action) start = (.error cause, state) := by
  rw [map_eq_pure_bind]
  exact bind_of_error ended

theorem adapt_of_ok {change : ε → ε'} {value : α} (ended : action start = (.ok value, state)) :
    (action.adapt change) start = (.ok value, state) := by
  change ((action start).1.mapError change, (action start).2) = _
  rw [ended]
  rfl

theorem adapt_of_error {change : ε → ε'} {cause : ε} (ended : action start = (.error cause, state)) :
    (action.adapt change) start = (.error (change cause), state) := by
  change ((action start).1.mapError change, (action start).2) = _
  rw [ended]
  rfl

end Runs

/-! ## Guarantees -/

/-- Started in `start`, the computation ends as `done` says or fails as `failed` says. -/
def Ensures (action : ExceptT ε (StateM σ) α) (start : σ) (done : α → σ → Prop)
    (failed : ε → σ → Prop) : Prop :=
  match action start with
  | (.ok value, state) => done value state
  | (.error cause, state) => failed cause state

namespace Ensures

variable {action : ExceptT ε (StateM σ) α} {start : σ} {done done' : α → σ → Prop}
  {failed failed' : ε → σ → Prop}

theorem of_ok {value : α} {state : σ} (ensured : Ensures action start done failed)
    (ended : action start = (.ok value, state)) : done value state := by
  unfold Ensures at ensured
  rw [ended] at ensured
  exact ensured

theorem of_error {cause : ε} {state : σ} (ensured : Ensures action start done failed)
    (ended : action start = (.error cause, state)) : failed cause state := by
  unfold Ensures at ensured
  rw [ended] at ensured
  exact ensured

/-- A computation that is known to succeed. -/
theorem of_success {value : α} {state : σ} (ended : action start = (.ok value, state))
    (holds : done value state) : Ensures action start done failed := by
  unfold Ensures
  rw [ended]
  exact holds

/-- A computation that is known to fail. -/
theorem of_failure {cause : ε} {state : σ} (ended : action start = (.error cause, state))
    (holds : failed cause state) : Ensures action start done failed := by
  unfold Ensures
  rw [ended]
  exact holds

theorem intro (ok : ∀ value state, action start = (.ok value, state) → done value state)
    (error : ∀ cause state, action start = (.error cause, state) → failed cause state) :
    Ensures action start done failed := by
  unfold Ensures
  split
  · exact ok _ _ ‹_›
  · exact error _ _ ‹_›

/-- A computation that ensures one way to end ends in this way. -/
theorem ends {value : α} {state : σ}
    (ensured : Ensures action start (fun answer after => answer = value ∧ after = state) fun _ _ => False) :
    action start = (.ok value, state) := by
  rcases ended : action start with ⟨_ | answer, after⟩
  · exact (ensured.of_error ended).elim
  · obtain ⟨rfl, rfl⟩ := ensured.of_ok ended
    rfl

theorem mono (ensured : Ensures action start done failed)
    (ok : ∀ value state, done value state → done' value state)
    (error : ∀ cause state, failed cause state → failed' cause state) :
    Ensures action start done' failed' :=
  intro (fun value state ended => ok value state (ensured.of_ok ended))
    fun cause state ended => error cause state (ensured.of_error ended)

theorem and (first : Ensures action start done failed) (second : Ensures action start done' failed') :
    Ensures action start (fun value state => done value state ∧ done' value state)
      fun cause state => failed cause state ∧ failed' cause state :=
  intro (fun _ _ ended => ⟨first.of_ok ended, second.of_ok ended⟩)
    fun _ _ ended => ⟨first.of_error ended, second.of_error ended⟩

theorem of_pure {value : α} (holds : done value start) :
    Ensures (pure value) start done failed := holds

theorem of_throw {cause : ε} (holds : failed cause start) :
    Ensures (throw cause) start done failed := holds

/-- The second computation starts where the first one ended. A failure of the first is final. -/
theorem bind {next : α → ExceptT ε (StateM σ) β} {done : β → σ → Prop}
    (first : Ensures action start (fun value state => Ensures (next value) state done failed) failed) :
    Ensures (action >>= next) start done failed := by
  unfold Ensures at first
  split at first
  · rename_i value state ended
    unfold Ensures
    rw [bind_of_ok ended]
    exact first
  · rename_i cause state ended
    unfold Ensures
    rw [bind_of_error ended]
    exact first

/-- What the first computation guarantees is all that the second one needs. -/
theorem bind_of {next : α → ExceptT ε (StateM σ) β} {between : α → σ → Prop} {done : β → σ → Prop}
    (first : Ensures action start between failed)
    (rest : ∀ value state, between value state → Ensures (next value) state done failed) :
    Ensures (action >>= next) start done failed :=
  bind (first.mono rest fun _ _ failure => failure)

theorem of_get_bind {next : σ → ExceptT ε (StateM σ) β} {done : β → σ → Prop}
    (rest : Ensures (next start) start done failed) : Ensures (get >>= next) start done failed := rest

theorem of_set {state : σ} {done : PUnit → σ → Prop} (holds : done ⟨⟩ state) :
    Ensures (set state) start done failed := holds

theorem of_modify {change : σ → σ} {done : PUnit → σ → Prop} (holds : done ⟨⟩ (change start)) :
    Ensures (modify change) start done failed := holds

/-- An outcome that was computed without the state. -/
theorem of_outcome {outcome : Except ε α} {value : α} (known : outcome = .ok value)
    (holds : done value start) : Ensures (liftM outcome) start done failed := by
  rw [known]
  exact holds

/-- A failure that was found without the state. -/
theorem of_failed_outcome {outcome : Except ε α} {cause : ε} (known : outcome = .error cause)
    (holds : failed cause start) : Ensures (liftM outcome) start done failed := by
  rw [known]
  exact holds

/-- A failure reported under another name. -/
theorem adapt {change : ε → ε'} {failed : ε' → σ → Prop}
    (ensured : Ensures action start done fun cause state => failed (change cause) state) :
    Ensures (action.adapt change) start done failed := by
  unfold Ensures at ensured
  split at ensured
  · rename_i value state ended
    unfold Ensures
    rw [adapt_of_ok ended]
    exact ensured
  · rename_i cause state ended
    unfold Ensures
    rw [adapt_of_error ended]
    exact ensured

end Ensures

end EvoRaster
