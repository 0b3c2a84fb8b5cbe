import EvoRaster.Proofs.Evaluation.Uniform
import EvoRaster.Proofs.Machine.Pixels
import EvoRaster.Proofs.Machine.Shades

/-!
Contract: a rendering as writes to the cells of an image.

Owns:
- `Code.paint`, the rendering that overwrites one cell after the other in memory of any contents, at the place that
  the column and the row of the pixel give;
- `Code.paint_eq`, by which it writes the samples of `Code.render`, in their order, to the cells from zero on, and
  leaves all other cells alone;
- `Machine.render_pixels`: a rendering is empty, fails as the program fails, or holds the clamped and spread value of
  the program at every pixel.
-/

namespace EvoRaster

open Numeric

/-! ## Painting -/

/-- The cells of an image, and what lies above them in memory. -/
abbrev Canvas := Nat → UInt8

namespace Canvas

def write (canvas : Canvas) (place : Nat) (value : UInt8) : Canvas :=
  fun other => if other = place then value else canvas other

/-- Writes samples to adjacent cells. -/
def overlay (canvas : Canvas) : Nat → List UInt8 → Canvas
  | _, [] => canvas
  | place, first :: rest => overlay (canvas.write place first) (place + 1) rest

theorem overlay_append (canvas : Canvas) (place : Nat) (first second : List UInt8) :
    canvas.overlay place (first ++ second) =
      (canvas.overlay place first).overlay (place + first.length) second := by
  induction first generalizing canvas place with
  | nil => rfl
  | cons value rest inductionHypothesis =>
      rw [List.cons_append, overlay, inductionHypothesis, overlay, List.length_cons, Nat.add_right_comm,
        Nat.add_assoc]

/-- Cells that are overlaid have their sample, and all others what they had. -/
theorem overlay_apply (canvas : Canvas) (place : Nat) (samples : List UInt8) (other : Nat) :
    canvas.overlay place samples other =
      if place ≤ other then samples.getD (other - place) (canvas other) else canvas other := by
  induction samples generalizing canvas place with
  | nil => simp [overlay]
  | cons first rest inductionHypothesis =>
      rw [overlay, inductionHypothesis, write]
      obtain below | rfl | above := Nat.lt_trichotomy other place
      · rw [if_neg (show ¬place + 1 ≤ other by omega), if_neg (show ¬place ≤ other by omega),
          if_neg (show ¬other = place by omega)]
      · simp
      · rw [if_pos (show place + 1 ≤ other by omega), if_pos (show place ≤ other by omega),
          if_neg (show ¬other = place by omega), show other - place = other - (place + 1) + 1 by omega,
          List.getD_cons_succ]

end Canvas

namespace Code

/-- Runs the pixels of a row, each of which overwrites its own cell. -/
def paintRow (code : Code) (width y : Nat) :
    List Nat → Workspace → Canvas → Except Fault (Workspace × Canvas)
  | [], workspace, canvas => .ok (workspace, canvas)
  | x :: columns, workspace, canvas => do
      let (value, workspace) ← (workspace.setColumn (coordinate x width)).run code
      code.paintRow width y columns workspace (canvas.write (x + y * width) (sample value))

def paintRows (code : Code) (width height : Nat) :
    List Nat → Workspace → Canvas → Except Fault (Workspace × Canvas)
  | [], workspace, canvas => .ok (workspace, canvas)
  | y :: rows, workspace, canvas => do
      let (workspace, canvas) ←
        code.paintRow width y (List.range width) (workspace.setRow (coordinate y height)) canvas
      code.paintRows width height rows workspace canvas

def paint (code : Code) (width height : Nat) (canvas : Canvas) : Except Fault Canvas := do
  let (_, canvas) ← code.paintRows width height (List.range height) Workspace.fresh canvas
  return canvas

private theorem paintRow_eq (code : Code) (width y start count : Nat) (workspace : Workspace) (canvas : Canvas) :
    code.paintRow width y (List.range' start count) workspace canvas =
      (code.renderRow width (List.range' start count) workspace).map fun (samples, next) =>
        (next, canvas.overlay (start + y * width) samples) := by
  induction count generalizing start workspace canvas with
  | zero => rfl
  | succ count inductionHypothesis =>
      rw [List.range'_succ, paintRow, renderRow, map_bind]
      cases (workspace.setColumn (coordinate start width)).run code with
      | error cause => rfl
      | ok ran =>
          obtain ⟨value, between⟩ := ran
          simp only [ok_bind, inductionHypothesis, map_bind, Nat.add_right_comm]
          cases code.renderRow width (List.range' (start + 1) count) between <;> rfl

private theorem length_of_renderRow {code : Code} {width : Nat} {columns : List Nat} {workspace next : Workspace}
    {samples : List UInt8} (rendered : code.renderRow width columns workspace = .ok (samples, next)) :
    samples.length = columns.length := by
  induction columns generalizing workspace samples with
  | nil =>
      cases rendered
      rfl
  | cons x columns inductionHypothesis =>
      rw [renderRow] at rendered
      cases ran : (workspace.setColumn (coordinate x width)).run code with
      | error cause => rw [ran] at rendered; cases rendered
      | ok first =>
          obtain ⟨value, between⟩ := first
          simp only [ran, ok_bind] at rendered
          cases others : code.renderRow width columns between with
          | error cause => rw [others] at rendered; cases rendered
          | ok rest =>
              rw [others] at rendered
              cases rendered
              exact congrArg Nat.succ (inductionHypothesis others)

private theorem paintRows_eq (code : Code) (width height start count : Nat) (workspace : Workspace) (canvas : Canvas) :
    code.paintRows width height (List.range' start count) workspace canvas =
      (code.renderRows width height (List.range' start count) workspace).map fun (samples, next) =>
        (next, canvas.overlay (start * width) samples) := by
  induction count generalizing start workspace canvas with
  | zero => rfl
  | succ count inductionHypothesis =>
      rw [List.range'_succ, paintRows, renderRows, map_bind, List.range_eq_range', paintRow_eq]
      cases rendered : code.renderRow width (List.range' 0 width) (workspace.setRow (coordinate start height)) with
      | error cause => rfl
      | ok row =>
          obtain ⟨first, between⟩ := row
          have counted := length_of_renderRow rendered
          rw [List.length_range'] at counted
          simp only [map_ok, ok_bind, inductionHypothesis, map_bind]
          cases code.renderRows width height (List.range' (start + 1) count) between with
          | error cause => rfl
          | ok others =>
              refine congrArg (fun canvas => Except.ok (others.2, canvas)) ?_
              rw [Canvas.overlay_append, counted, Nat.zero_add, Nat.succ_mul]

/-- A rendering overwrites the cells of the image with its samples, in their order, and no other cell. -/
theorem paint_eq (code : Code) (width height : Nat) (canvas : Canvas) :
    code.paint width height canvas =
      (code.render width height).map fun samples place => samples.getD place (canvas place) := by
  rw [paint, render, List.range_eq_range', paintRows_eq]
  cases code.renderRows width height (List.range' 0 height) Workspace.fresh with
  | error cause => rfl
  | ok rendered =>
      refine congrArg Except.ok (funext fun place => ?_)
      rw [Nat.zero_mul, Canvas.overlay_apply, if_pos (Nat.zero_le _), Nat.sub_zero]

private theorem renderRows_of_narrow (code : Code) (height : Nat) (rows : List Nat) (workspace : Workspace) :
    ∃ next, code.renderRows 0 height rows workspace = .ok ([], next) := by
  induction rows generalizing workspace with
  | nil => exact ⟨workspace, rfl⟩
  | cons y rows inductionHypothesis =>
      obtain ⟨next, rendered⟩ := inductionHypothesis (workspace.setRow (coordinate y height))
      exact ⟨next, by simp only [renderRows, List.range_zero, renderRow, ok_bind, rendered]; rfl⟩

/-- An image without pixels is rendered without a run, so even code that only fails renders it. -/
theorem render_of_empty (code : Code) {width height : Nat} (empty : width * height = 0) :
    code.render width height = .ok [] := by
  obtain rfl | rfl := Nat.mul_eq_zero.mp empty
  · obtain ⟨next, rendered⟩ := code.renderRows_of_narrow height (List.range height) Workspace.fresh
    rw [render, rendered]
    rfl
  · rfl

end Code

/-! ## Rows one after the other -/

/-- The place of a cell, if all rows are equally long. -/
private theorem getElem?_rows {α β : Type} {row : α → List β} {width x : Nat} (within : x < width) (rows : List α)
    (sized : ∀ item ∈ rows, (row item).length = width) (y : Nat) :
    (rows.flatMap row)[x + y * width]? = rows[y]?.bind fun item => (row item)[x]? := by
  induction rows generalizing y with
  | nil => rfl
  | cons item rows inductionHypothesis =>
      rw [List.forall_mem_cons] at sized
      rw [List.flatMap_cons]
      cases y with
      | zero => rw [Nat.zero_mul, Nat.add_zero, List.getElem?_append_left (sized.1 ▸ within)]; rfl
      | succ y =>
          rw [List.getElem?_append_right (by rw [sized.1, Nat.succ_mul]; omega), sized.1,
            show x + (y + 1) * width - width = x + y * width by rw [Nat.succ_mul]; omega,
            inductionHypothesis sized.2]
          rfl

private theorem length_rows {α β : Type} {row : α → List β} {width : Nat} (rows : List α)
    (sized : ∀ item ∈ rows, (row item).length = width) : (rows.flatMap row).length = width * rows.length := by
  induction rows with
  | nil => rfl
  | cons item rows inductionHypothesis =>
      rw [List.forall_mem_cons] at sized
      rw [List.flatMap_cons, List.length_append, sized.1, inductionHypothesis sized.2, List.length_cons,
        Nat.mul_succ, Nat.add_comm]

/-! ## Renderings of programs -/

private theorem Machine.render_of_made {program : Program} {machine : Machine}
    (made : Machine.ofProgram Config.registers program = .ok machine) (width height : Nat) :
    machine.render width height = program.render Config.registers width height := by
  rw [Program.render, made]
  rfl

/-- The gray level of a value that is known. -/
private theorem level_of_value {value clamped : Float32} {level : UInt8} {found : Option UInt8}
    (nearest : clamped = if value ≤ 1 then if value < -1 then -1 else value else 1)
    (held : found = some (clamped * 127 + 128).toUInt8) (known : sample value = level) : found = some level := by
  rw [held, nearest, ← clampToUnit_eq, ← known]
  rfl

/-- The machine of a program renders an image without pixels without running anything, so that its code does not
matter. At any other size it fails if the program fails at some point, for the same reason; and if the program has
a value at some point, it has one at every pixel. The registers of a pixel run from minus one in steps of two over the
extent of the image. The sample of the pixel in column `x` and row `y` stands at the place `x + y * width`, in whatever
state the cells of the image were before. It is the value of the program there, clamped, spread over 127 levels on
either side of 128 and cut off to a whole number. -/
theorem Machine.render_pixels {program : Program} {machine : Machine}
    (made : Machine.ofProgram 2 program = .ok machine) (width height : Nat) :
    (width * height = 0 → ∀ code, { machine with code }.render width height = .ok []) ∧
    (width * height ≠ 0 → ∀ point : Registers, point.size = 2 →
      (∀ cause, program.evaluate point = .error cause →
        cause.SparesRegisters ∧ machine.render width height = .error (.fault cause.asFault)) ∧
      ∀ value, program.evaluate point = .ok value →
        ∃ samples, machine.render width height = .ok samples ∧ samples.length = width * height ∧
          ∀ x < width, ∀ y < height, ∃ value clamped : Float32,
            program.evaluate #[Float32.ofNat x / Float32.ofNat width * 2 - 1,
              Float32.ofNat y / Float32.ofNat height * 2 - 1] = .ok value ∧
            clamped = (if value ≤ 1 then if value < -1 then -1 else value else 1) ∧
            samples[x + y * width]? = some (clamped * 127 + 128).toUInt8 ∧
            ∃ level : ℝ, Single.Represents (clamped * 127 + 128) level ∧
              ((clamped * 127 + 128).toUInt8.toNat : ℤ) = ⌊level⌋) ∧
    ∀ canvas, machine.code.paint width height canvas =
      (machine.code.render width height).map fun samples place => samples.getD place (canvas place) := by
  obtain ⟨code, compiled, rfl⟩ : ∃ code, Code.ofProgram Config.registers program = .ok code ∧
      { registers := 2, code, buffer := Vector.replicate _ 0 } = machine := by
    rw [ofProgram_eq] at made
    cases compiled : Code.ofProgram 2 program with
    | error cause => rw [compiled] at made; cases made
    | ok code =>
        rw [compiled] at made
        exact ⟨code, compiled, Except.ok.inj made⟩
  have reads : program.ReadsWithin Config.registers := Code.ofProgram_isOk_iff.mp ⟨code, compiled⟩
  refine ⟨fun empty code => ?_, fun inhabited point sized => ⟨fun cause failed => ?_, fun value valued => ?_⟩,
    code.paint_eq width height⟩
  · rw [render, if_pos rfl, code.render_of_empty empty]
    rfl
  · -- The program fails at every point, so the first pixel ends the rendering.
    have fails : code.Fails cause.asFault := by
      intro workspace
      have here : program.evaluate workspace.registers.toArray = .error cause :=
        Program.evaluate_error_of (by rw [sized, workspace.registers.size_toArray]) failed
      rw [Program.run_of_compiled compiled, here, mapError_error]
    refine ⟨Program.evaluate_error (by rw [sized]; exact reads) failed, ?_⟩
    rw [render, if_pos rfl, fails.render_error inhabited, mapError_error]
  · have everywhere (x y : Nat) : ∃ value, program.evaluate (pixelPoint width height x y) = .ok value :=
      Program.evaluate_ok_of sized valued
    choose values evaluated using everywhere
    have rows : ∀ y ∈ List.range height,
        ((List.range width).map fun x => sample (values x y)).length = width := by simp
    refine ⟨_, (render_of_made made width height).trans
      (Program.render_of_values reads fun x _ y _ => evaluated x y), ?_, fun x within y below => ?_⟩
    · rw [length_rows _ rows, List.length_range]
    · obtain ⟨size, -, -, shaded, cut, -⟩ := sample_shaded (values x y)
      refine ⟨values x y, clampToUnit (values x y), evaluated x y, clampToUnit_eq _, ?_, shade size, shaded, cut⟩
      rw [getElem?_rows within _ rows, List.getElem?_range below, Option.bind_some, List.getElem?_map,
        List.getElem?_range within, Option.map_some]
      rfl

/-- A gradient from column to column, once as it is and once five times as steep, so that its ends are clamped; and a
program that misses its operands. -/
theorem Machine.render_pixels_gradient :
    (∃ machine, Machine.ofProgram 2 [{ op := .var, index := 0 }] = .ok machine ∧ machine.render 4 0 = .ok [] ∧
      ∃ samples, machine.render 4 2 = .ok samples ∧ samples.length = 8 ∧ samples[0 + 0 * 4]? = some 1 ∧
        samples[1 + 0 * 4]? = some 64 ∧ samples[2 + 1 * 4]? = some 128 ∧ samples[3 + 1 * 4]? = some 191) ∧
    (∃ machine, Machine.ofProgram 2 [{ op := .var, index := 0 }, Instr.const 5, Instr.binary .mul] = .ok machine ∧
      ∃ samples, machine.render 4 1 = .ok samples ∧ samples.length = 4 ∧ samples[1 + 0 * 4]? = some 1 ∧
        samples[3 + 0 * 4]? = some 255) ∧
    ∃ machine, Machine.ofProgram 2 [Instr.binary .add] = .ok machine ∧
      machine.render 4 2 = .error (.fault .underflow) := by
  let column : Program := [{ op := .var, index := 0 }]
  let steep : Program := [{ op := .var, index := 0 }, Instr.const 5, Instr.binary .mul]
  obtain ⟨machine, made⟩ : ∃ machine, Machine.ofProgram 2 column = .ok machine := ⟨_, rfl⟩
  obtain ⟨machine', made'⟩ : ∃ machine, Machine.ofProgram 2 steep = .ok machine := ⟨_, rfl⟩
  obtain ⟨faulty, compiled⟩ : ∃ machine, Machine.ofProgram 2 [Instr.binary .add] = .ok machine := ⟨_, rfl⟩
  refine ⟨⟨machine, made, (Machine.render_pixels made 4 0).1 rfl machine.code, ?_⟩, ⟨machine', made', ?_⟩, faulty,
    compiled, (((Machine.render_pixels compiled 4 2).2.1 (by decide) #[0, 0] rfl).1 (.stack .underflow) rfl).2⟩
  · obtain ⟨samples, rendered, counted, placed⟩ :=
      ((Machine.render_pixels made 4 2).2.1 (by decide) #[0, 0] rfl).2 0 rfl
    have pixel {x y : Nat} {level : UInt8} (within : x < 4) (below : y < 2)
        (known : sample (Float32.ofNat x / Float32.ofNat 4 * 2 - 1) = level) : samples[x + y * 4]? = some level := by
      obtain ⟨value, clamped, evaluated, nearest, found, -⟩ := placed x within y below
      obtain rfl : Float32.ofNat x / Float32.ofNat 4 * 2 - 1 = value := Except.ok.inj evaluated
      exact level_of_value nearest found known
    exact ⟨samples, rendered, counted, pixel (by decide) (by decide) (by decide +kernel),
      pixel (by decide) (by decide) (by decide +kernel), pixel (by decide) (by decide) (by decide +kernel),
      pixel (by decide) (by decide) (by decide +kernel)⟩
  · obtain ⟨samples, rendered, counted, placed⟩ :=
      ((Machine.render_pixels made' 4 1).2.1 (by decide) #[0, 0] rfl).2 0 (by decide +kernel)
    obtain ⟨first, clamped, evaluated, nearest, found, -⟩ := placed 1 (by decide) 0 (by decide)
    obtain ⟨last, clamped', evaluated', nearest', found', -⟩ := placed 3 (by decide) 0 (by decide)
    have below : steep.evaluate #[Float32.ofNat 1 / Float32.ofNat 4 * 2 - 1,
        Float32.ofNat 0 / Float32.ofNat 1 * 2 - 1] = .ok (-2.5) := by decide +kernel
    have above : steep.evaluate #[Float32.ofNat 3 / Float32.ofNat 4 * 2 - 1,
        Float32.ofNat 0 / Float32.ofNat 1 * 2 - 1] = .ok 2.5 := by decide +kernel
    obtain rfl := Except.ok.inj (below.symm.trans evaluated)
    obtain rfl := Except.ok.inj (above.symm.trans evaluated')
    exact ⟨samples, rendered, counted, level_of_value nearest found (by decide +kernel),
      level_of_value nearest' found' (by decide +kernel)⟩

end EvoRaster
