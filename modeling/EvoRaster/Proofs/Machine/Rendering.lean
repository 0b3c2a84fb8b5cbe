import EvoRaster.Proofs.Height.Course
import EvoRaster.Proofs.Machine.Agreement
import EvoRaster.Search.Fitness

/-!
Contract: which programs can be rendered and compared with a goal.

Owns:
- renderings in which every run has a value, and renderings in which every run fails alike;
- `programError_of_fits` and `programError_of_tall`: a program that leaves one number has an error if it fits
  on the stack, and otherwise overflows at the first pixel.
-/

namespace EvoRaster

namespace Code

variable {code : Code} {width height : Nat}

/-- Every run has a value, at whatever point and in whatever buffer. -/
def HasValues (code : Code) : Prop :=
  ∀ (workspace : Workspace), ∃ value, (code.run workspace.registers.toArray workspace.buffer).1 = .ok value

/-- Every run fails for one reason. -/
def Fails (code : Code) (cause : Fault) : Prop :=
  ∀ (workspace : Workspace), (code.run workspace.registers.toArray workspace.buffer).1 = .error cause

theorem run_workspace (code : Code) (workspace : Workspace) :
    workspace.run code =
      (code.run workspace.registers.toArray workspace.buffer).1.map fun value =>
        (value, { workspace with
          buffer := (code.run workspace.registers.toArray workspace.buffer).2 }) := rfl

theorem HasValues.run_ok (valued : code.HasValues) (workspace : Workspace) :
    ∃ value next, workspace.run code = .ok (value, next) := by
  rcases valued workspace with ⟨value, answered⟩
  exact ⟨value, _, by rw [run_workspace, answered, map_ok]⟩

theorem Fails.run_error {cause : Fault} (fails : code.Fails cause) (workspace : Workspace) :
    workspace.run code = .error cause := by
  rw [run_workspace, fails workspace, map_error]

private theorem HasValues.renderRow_ok (valued : code.HasValues) (width : Nat) (columns : List Nat)
    (workspace : Workspace) :
    ∃ samples next, code.renderRow width columns workspace = .ok (samples, next) ∧
      samples.length = columns.length := by
  induction columns generalizing workspace with
  | nil => exact ⟨[], workspace, rfl, rfl⟩
  | cons x columns inductionHypothesis =>
      rcases valued.run_ok (workspace.setColumn (coordinate x width)) with ⟨value, between, ran⟩
      rcases inductionHypothesis between with ⟨samples, next, rendered, counted⟩
      exact ⟨sample value :: samples, next, by simp only [renderRow, ran, ok_bind, rendered]; rfl,
        by rw [List.length_cons, List.length_cons, counted]⟩

private theorem HasValues.renderRows_ok (valued : code.HasValues) (width height : Nat) (rows : List Nat)
    (workspace : Workspace) :
    ∃ samples next, code.renderRows width height rows workspace = .ok (samples, next) ∧
      samples.length = width * rows.length := by
  induction rows generalizing workspace with
  | nil => exact ⟨[], workspace, rfl, rfl⟩
  | cons y rows inductionHypothesis =>
      rcases valued.renderRow_ok width (List.range width) (workspace.setRow (coordinate y height)) with
        ⟨first, between, row, firstCount⟩
      rcases inductionHypothesis between with ⟨others, next, rendered, counted⟩
      refine ⟨first ++ others, next, by simp only [renderRows, row, ok_bind, rendered]; rfl, ?_⟩
      rw [List.length_append, firstCount, counted, List.length_range, List.length_cons, Nat.mul_succ,
        Nat.add_comm]

theorem HasValues.render_ok (valued : code.HasValues) (width height : Nat) :
    ∃ samples, code.render width height = .ok samples ∧ samples.length = width * height := by
  rcases valued.renderRows_ok width height (List.range height) Workspace.fresh with
    ⟨samples, next, rendered, counted⟩
  exact ⟨samples, by rw [render, rendered]; rfl, by rw [counted, List.length_range]⟩

/-- The first pixel decides. -/
theorem Fails.render_error {cause : Fault} (fails : code.Fails cause) (inhabited : width * height ≠ 0) :
    code.render width height = .error cause := by
  rcases Nat.exists_eq_succ_of_ne_zero (Nat.ne_zero_of_mul_ne_zero_left inhabited) with ⟨columns, rfl⟩
  rcases Nat.exists_eq_succ_of_ne_zero (Nat.ne_zero_of_mul_ne_zero_right inhabited) with ⟨rows, rfl⟩
  have row : ∀ workspace, code.renderRow (columns + 1) (List.range (columns + 1)) workspace =
      .error cause := by
    intro workspace
    rw [List.range_succ_eq_map, renderRow, fails.run_error, error_bind]
  rw [render, List.range_succ_eq_map, renderRows, row, error_bind, error_bind]

end Code

/-! ## Programs -/

namespace Program

variable {program : Program} {width height : Nat}

theorem render_eq (program : Program) (width height : Nat) :
    program.render Config.registers width height =
      ((Code.ofProgram Config.registers program).mapError RenderError.compile >>= fun code =>
        (code.render width height).mapError RenderError.fault) := by
  unfold render
  rw [Machine.ofProgram_eq]
  cases Code.ofProgram Config.registers program with
  | error cause => rfl
  | ok code => rfl

/-- Code of a program answers what the checked evaluation answers at the point of the workspace. -/
theorem run_of_compiled {code : Code} (compiled : Code.ofProgram Config.registers program = .ok code)
    (workspace : Workspace) :
    (code.run workspace.registers.toArray workspace.buffer).1 =
      (program.evaluate workspace.registers.toArray).mapError EvalError.asFault := by
  apply Code.run_eq
  rw [workspace.registers.size_toArray]
  exact compiled

theorem ReadsWithin.inWorkspace (reads : program.ReadsWithin Config.registers) (workspace : Workspace) :
    program.ReadsWithin workspace.registers.toArray.size := by
  rw [workspace.registers.size_toArray]
  exact reads

/-- A program that leaves one number and fits on the stack is rendered. -/
theorem render_of_fits (width height : Nat) (reads : program.ReadsWithin Config.registers)
    (fits : program.Fits 0 1 Stack.evaluationCapacity) :
    ∃ samples, program.render Config.registers width height = .ok samples ∧
      samples.length = width * height := by
  rcases Code.ofProgram_isOk_iff.mpr reads with ⟨code, compiled⟩
  have valued : code.HasValues := by
    intro workspace
    rcases evaluate_of_fits (reads.inWorkspace workspace) fits with ⟨value, evaluated⟩
    exact ⟨value, by rw [run_of_compiled compiled, evaluated, mapError_ok]⟩
  rcases valued.render_ok width height with ⟨samples, rendered, counted⟩
  exact ⟨samples, by rw [render_eq, compiled, mapError_ok, ok_bind, rendered, mapError_ok], counted⟩

/-- A program that gets higher than the stack is not rendered at any size. -/
theorem render_of_tall (reads : program.ReadsWithin Config.registers) {final peak : Nat}
    (taken : program.course 0 = some { final, peak }) (tall : Stack.evaluationCapacity < peak)
    (inhabited : width * height ≠ 0) :
    program.render Config.registers width height = .error (.fault .overflow) := by
  rcases Code.ofProgram_isOk_iff.mpr reads with ⟨code, compiled⟩
  have fails : code.Fails .overflow := by
    intro workspace
    rw [run_of_compiled compiled, evaluate_of_tall (reads.inWorkspace workspace) taken tall]
    rfl
  rw [render_eq, compiled, mapError_ok, ok_bind, fails.render_error inhabited, mapError_error]

end Program

/-! ## Errors -/

namespace GrayImage

variable {goal : GrayImage} {program : Program}

theorem ofSamples_ok {width height : Nat} {samples : List UInt8}
    (counted : samples.length = width * height) :
    ∃ image, ofSamples width height samples = .ok image ∧ image.width = width ∧
      image.height = height := by
  rw [ofSamples, dif_pos counted]
  exact ⟨_, rfl, rfl, rfl⟩

theorem samples_of_ofSamples {width height : Nat} {samples : List UInt8} {image : GrayImage}
    (made : ofSamples width height samples = .ok image) :
    width = image.width ∧ height = image.height ∧ image.samples.toList = samples := by
  unfold ofSamples at made
  split at made
  · obtain rfl := Except.ok.inj made
    exact ⟨rfl, rfl, rfl⟩
  · cases made

theorem renderAlike_of_fits (goal : GrayImage) (reads : program.ReadsWithin Config.registers)
    (fits : program.Fits 0 1 Stack.evaluationCapacity) :
    ∃ generated, goal.renderAlike program = .ok generated ∧ goal.width = generated.width ∧
      goal.height = generated.height := by
  rcases Program.render_of_fits goal.width goal.height reads fits with ⟨samples, rendered, counted⟩
  rcases ofSamples_ok counted with ⟨generated, made, width, height⟩
  exact ⟨generated, by rw [renderAlike, rendered, mapError_ok, ok_bind, made, mapError_ok],
    width.symm, height.symm⟩

/-- A program with an error reads registers that exist. -/
theorem readsWithin_of_programError {model : ErrorModel} {error : Float}
    (known : goal.programError model program = .ok error) : program.ReadsWithin Config.registers := by
  apply Code.ofProgram_isOk_iff.mp
  cases compiled : Code.ofProgram Config.registers program with
  | ok code => exact ⟨code, rfl⟩
  | error cause =>
      rw [programError, renderAlike, Program.render_eq, compiled] at known
      cases known

/-- A program with an error has an image as large as the goal. -/
theorem renderAlike_of_programError {model : ErrorModel} {error : Float}
    (known : goal.programError model program = .ok error) :
    ∃ generated, goal.renderAlike program = .ok generated ∧ goal.width = generated.width ∧
      goal.height = generated.height := by
  rw [programError] at known
  rw [renderAlike] at known ⊢
  cases rendered : program.render Config.registers goal.width goal.height with
  | error cause => rw [rendered] at known; cases known
  | ok samples =>
      rw [rendered, mapError_ok, ok_bind] at known
      rw [mapError_ok, ok_bind]
      by_cases counted : samples.length = goal.width * goal.height
      · obtain ⟨generated, made, width, height⟩ := ofSamples_ok counted
        exact ⟨generated, by rw [made, mapError_ok], width.symm, height.symm⟩
      · rw [ofSamples, dif_neg counted] at known
        cases known

theorem difference_ok {generated : GrayImage} (model : ErrorModel)
    (same : goal.width = generated.width ∧ goal.height = generated.height) :
    ∃ error, goal.difference model generated = .ok error := by
  cases model with
  | perceptual =>
      simp only [difference, perceptualDifference, perceptualDifferenceIn, dif_pos same]
      exact ⟨_, rfl⟩
  | squared =>
      rw [difference, squaredDifference, checkSameSize_of_same same]
      exact ⟨_, rfl⟩

theorem programError_of_fits (goal : GrayImage) (model : ErrorModel)
    (reads : program.ReadsWithin Config.registers)
    (fits : program.Fits 0 1 Stack.evaluationCapacity) :
    ∃ error, goal.programError model program = .ok error := by
  rcases goal.renderAlike_of_fits reads fits with ⟨generated, rendered, same⟩
  rcases difference_ok model same with ⟨error, compared⟩
  exact ⟨error, by rw [programError, rendered, ok_bind, compared, mapError_ok]⟩

theorem programError_of_tall (model : ErrorModel) (reads : program.ReadsWithin Config.registers)
    {final peak : Nat} (taken : program.course 0 = some { final, peak })
    (tall : Stack.evaluationCapacity < peak) (inhabited : goal.pixels ≠ 0) :
    goal.programError model program = .error (.render (.fault .overflow)) := by
  rw [programError, renderAlike, Program.render_of_tall reads taken tall inhabited, mapError_error,
    error_bind, error_bind]

end GrayImage

end EvoRaster
