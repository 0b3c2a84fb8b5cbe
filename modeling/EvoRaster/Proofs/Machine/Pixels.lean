import EvoRaster.Proofs.Folding.Preservation
import EvoRaster.Proofs.Machine.Rendering

/-!
Contract: the samples of a rendering, pixel by pixel.

Owns:
- `pixelPoint`, the registers of a pixel;
- `Program.render_of_values`, by which a rendered program has the sample of its value at each pixel, although
  all pixels share registers and buffer;
- `GrayImage.programError_of_folded`, by which folding a program does not change its error.
-/

namespace EvoRaster

/-- The registers of a pixel. -/
def pixelPoint (width height x y : Nat) : Registers := #[coordinate x width, coordinate y height]

/-! ## Runs that share a workspace -/

section Shared

variable {program : Program} {code : Code} {width height : Nat}

private theorem setColumn_toArray {workspace : Workspace} {row : Float32} (onRow : workspace.registers[1]? = some row)
    (x : Float32) : (workspace.setColumn x).registers.toArray = #[x, row] := by
  obtain ⟨⟨⟨registers⟩, size⟩, buffer⟩ := workspace
  obtain ⟨first, second, rfl⟩ := List.length_eq_two.mp size
  obtain rfl : second = row := by simpa using onRow
  simp [Workspace.setColumn]

/-- A run answers the value of the program and leaves the registers as they are. -/
theorem run_of_evaluate (compiled : Code.ofProgram Config.registers program = .ok code)
    (workspace : Workspace) {value : Float32}
    (evaluated : program.evaluate workspace.registers.toArray = .ok value) :
    ∃ next, workspace.run code = .ok (value, next) ∧ next.registers = workspace.registers := by
  have answered := Program.run_of_compiled compiled workspace
  rw [evaluated, mapError_ok] at answered
  refine ⟨{ workspace with buffer := (code.run workspace.registers.toArray workspace.buffer).2 }, ?_, rfl⟩
  rw [Code.run_workspace, answered, map_ok]

private theorem renderRow_of_values (compiled : Code.ofProgram Config.registers program = .ok code)
    {values : Nat → Float32} {row : Float32} (columns : List Nat) (workspace : Workspace)
    (onRow : workspace.registers[1]? = some row)
    (evaluated : ∀ x ∈ columns, program.evaluate #[coordinate x width, row] = .ok (values x)) :
    ∃ next, code.renderRow width columns workspace =
      .ok (columns.map fun x => sample (values x), next) := by
  induction columns generalizing workspace with
  | nil => exact ⟨workspace, rfl⟩
  | cons x columns inductionHypothesis =>
      rw [List.forall_mem_cons] at evaluated
      have here : program.evaluate (workspace.setColumn (coordinate x width)).registers.toArray =
          .ok (values x) := by
        rw [setColumn_toArray onRow]
        exact evaluated.1
      obtain ⟨between, ran, kept⟩ := run_of_evaluate compiled _ here
      have onRow' : between.registers[1]? = some row := by
        rw [kept, ← onRow]
        simp [Workspace.setColumn]
      obtain ⟨next, rendered⟩ := inductionHypothesis between onRow' evaluated.2
      exact ⟨next, by simp only [Code.renderRow, ran, rendered, ok_bind]; rfl⟩

theorem renderRows_of_values (compiled : Code.ofProgram Config.registers program = .ok code)
    {values : Nat → Nat → Float32} (rows : List Nat) (workspace : Workspace)
    (evaluated : ∀ y ∈ rows, ∀ x < width,
      program.evaluate (pixelPoint width height x y) = .ok (values x y)) :
    ∃ next, code.renderRows width height rows workspace =
      .ok (rows.flatMap fun y => (List.range width).map fun x => sample (values x y), next) := by
  induction rows generalizing workspace with
  | nil => exact ⟨workspace, rfl⟩
  | cons y rows inductionHypothesis =>
      rw [List.forall_mem_cons] at evaluated
      have onRow : (workspace.setRow (coordinate y height)).registers[1]? = some (coordinate y height) := by
        simp [Workspace.setRow]
      obtain ⟨between, row⟩ := renderRow_of_values compiled (List.range width)
        (workspace.setRow (coordinate y height)) onRow
        fun x inside => evaluated.1 x (List.mem_range.mp inside)
      obtain ⟨next, rendered⟩ := inductionHypothesis between evaluated.2
      exact ⟨next, by simp only [Code.renderRows, row, rendered, ok_bind]; rfl⟩

/-- Every sample is that of the value at its pixel. -/
theorem Program.render_of_values (reads : program.ReadsWithin Config.registers)
    {values : Nat → Nat → Float32}
    (evaluated : ∀ x < width, ∀ y < height,
      program.evaluate (pixelPoint width height x y) = .ok (values x y)) :
    program.render Config.registers width height =
      .ok ((List.range height).flatMap fun y => (List.range width).map fun x => sample (values x y)) := by
  obtain ⟨code, compiled⟩ := Code.ofProgram_isOk_iff.mpr reads
  obtain ⟨next, rendered⟩ := renderRows_of_values compiled (List.range height) Workspace.fresh
    fun y inside x within => evaluated x within y (List.mem_range.mp inside)
  rw [render_eq, compiled, mapError_ok, ok_bind, Code.render, rendered]
  rfl

end Shared

/-! ## Folded programs -/

section Folded

variable {program folded : Program}

/-- Folding a program that fits on the stack does not change its rendering. -/
theorem Program.render_of_folded {width height : Nat}
    (fits : program.Fits 0 1 Stack.evaluationCapacity) (reads : program.ReadsWithin Config.registers)
    (follows : ∀ registers, Follows (program.evaluate registers) (folded.evaluate registers)) :
    folded.render Config.registers width height = program.render Config.registers width height := by
  have valued (x y : Nat) : ∃ value, program.evaluate (pixelPoint width height x y) = .ok value :=
    evaluate_of_fits reads fits
  choose values evaluated using valued
  have evaluated' (x y : Nat) : folded.evaluate (pixelPoint width height x y) = .ok (values x y) := by
    obtain overflowed | same := follows (pixelPoint width height x y)
    · cases overflowed.symm.trans (evaluated x y)
    · rw [same, evaluated]
  have reads' : folded.ReadsWithin Config.registers := readsWithin_of_evaluate (evaluated' 0 0)
  rw [render_of_values reads fun x _ y _ => evaluated x y,
    render_of_values reads' fun x _ y _ => evaluated' x y]

/-- Folding a program that fits on the stack does not change its error. -/
theorem GrayImage.programError_of_folded (goal : GrayImage) (model : ErrorModel)
    (fits : program.Fits 0 1 Stack.evaluationCapacity) (reads : program.ReadsWithin Config.registers)
    (noDrop : ∀ instr ∈ program, instr.op ≠ .drop) :
    ∃ folded, program.fold = .ok folded ∧
      goal.programError model folded = goal.programError model program := by
  obtain ⟨folded, folds, follows⟩ := program.fold_follows noDrop
  refine ⟨folded, folds, ?_⟩
  rw [programError, programError, renderAlike, renderAlike, Program.render_of_folded fits reads follows]

end Folded

end EvoRaster
