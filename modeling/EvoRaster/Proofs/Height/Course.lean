import EvoRaster.Proofs.Evaluation.Registers

/-!
Contract: the heights that a program runs through.

Owns:
- `Instr.heightAfter` and `Program.course`, the heights on a stack without a bound;
- `Program.Fits`, a course between two heights that stays within a bound;
- the laws of sequences, by which a course is the course of a first part and then of the rest;
- `act_of_fits` and `act_of_tall`, by which a bounded stack overflows exactly when the peak does not fit.

Heights do not depend on any number that the program computes.
-/

namespace EvoRaster

/-- The height after an instruction, if the stack holds its operands. A `drop` is never carried out. -/
def Instr.heightAfter (instr : Instr) (height : Nat) : Option Nat :=
  match instr.op, height with
  | .const, height => some (height + 1)
  | .var, height => some (height + 1)
  | .binary _, height + 2 => some (height + 1)
  | .unary _, height + 1 => some (height + 1)
  | .dup, height + 1 => some (height + 2)
  | _, _ => none

/-- Where a run ends and how high it gets. -/
structure Course where
  final : Nat
  peak : Nat
deriving DecidableEq, Repr

namespace Program

/-- The course of a program from a height, unless an instruction misses an operand. -/
def course : Program → Nat → Option Course
  | [], height => some { final := height, peak := height }
  | instr :: rest, height => do
      let next ← instr.heightAfter height
      let later ← course rest next
      return { final := later.final, peak := max height later.peak }

/-- The program leads from one height to another and stays within a bound. -/
def Fits (program : Program) (start final bound : Nat) : Prop :=
  ∃ peak ≤ bound, program.course start = some { final, peak }

/-! ## Sequences -/

theorem course_cons_eq_some_iff {instr : Instr} {rest : Program} {start final peak : Nat} :
    course (instr :: rest) start = some { final, peak } ↔
      ∃ next later, instr.heightAfter start = some next ∧
        rest.course next = some { final, peak := later } ∧ peak = max start later := by
  rw [course]
  cases instr.heightAfter start with
  | none => simp
  | some next =>
      cases found : rest.course next with
      | none => simp [found]
      | some later =>
          rcases later with ⟨laterFinal, laterPeak⟩
          simp only [found, Option.bind_eq_bind, Option.bind_some, pure, Option.some.injEq, Course.mk.injEq,
            exists_and_left, exists_eq_left']
          constructor
          · intro given
            rcases given with ⟨rfl, rfl⟩
            exact ⟨laterPeak, ⟨rfl, rfl⟩, rfl⟩
          · intro given
            rcases given with ⟨later, ⟨rfl, rfl⟩, rfl⟩
            exact ⟨rfl, rfl⟩

theorem fits_nil {start final bound : Nat} :
    Fits [] start final bound ↔ start = final ∧ start ≤ bound := by
  constructor
  · intro given
    rcases given with ⟨peak, within, same⟩
    cases same
    exact ⟨rfl, within⟩
  · intro given
    rcases given with ⟨rfl, within⟩
    exact ⟨start, within, rfl⟩

theorem fits_cons {instr : Instr} {rest : Program} {start final bound : Nat} :
    Fits (instr :: rest) start final bound ↔
      start ≤ bound ∧ ∃ next, instr.heightAfter start = some next ∧ rest.Fits next final bound := by
  constructor
  · intro given
    rcases given with ⟨peak, within, taken⟩
    rcases course_cons_eq_some_iff.mp taken with ⟨next, later, stepped, remaining, rfl⟩
    exact ⟨by omega, next, stepped, later, by omega, remaining⟩
  · intro given
    rcases given with ⟨low, next, stepped, later, within, remaining⟩
    exact ⟨max start later, by omega,
      course_cons_eq_some_iff.mpr ⟨next, later, stepped, remaining, rfl⟩⟩

theorem Fits.start_le {program : Program} {start final bound : Nat}
    (fits : program.Fits start final bound) : start ≤ bound := by
  cases program with
  | nil => exact (fits_nil.mp fits).2
  | cons instr rest => exact (fits_cons.mp fits).1

theorem fits_append {first second : Program} {start final bound : Nat} :
    Fits (first ++ second) start final bound ↔
      ∃ between, first.Fits start between bound ∧ second.Fits between final bound := by
  induction first generalizing start with
  | nil =>
      constructor
      · intro fits
        exact ⟨start, fits_nil.mpr ⟨rfl, Fits.start_le fits⟩, fits⟩
      · intro given
        rcases given with ⟨between, empty, fits⟩
        rcases fits_nil.mp empty with ⟨rfl, -⟩
        exact fits
  | cons instr rest inductionHypothesis =>
      rw [List.cons_append, fits_cons]
      constructor
      · intro given
        rcases given with ⟨low, next, stepped, remaining⟩
        rcases inductionHypothesis.mp remaining with ⟨between, before, after⟩
        exact ⟨between, fits_cons.mpr ⟨low, next, stepped, before⟩, after⟩
      · intro given
        rcases given with ⟨between, before, after⟩
        rcases fits_cons.mp before with ⟨low, next, stepped, before⟩
        exact ⟨low, next, stepped, inductionHypothesis.mpr ⟨between, before, after⟩⟩

theorem fits_singleton {instr : Instr} {start final bound : Nat} :
    Fits [instr] start final bound ↔
      start ≤ bound ∧ final ≤ bound ∧ instr.heightAfter start = some final := by
  rw [fits_cons]
  constructor
  · intro given
    rcases given with ⟨low, next, stepped, remaining⟩
    rcases fits_nil.mp remaining with ⟨rfl, within⟩
    exact ⟨low, within, stepped⟩
  · intro given
    rcases given with ⟨low, within, stepped⟩
    exact ⟨low, final, stepped, fits_nil.mpr ⟨rfl, within⟩⟩

theorem Fits.mono {program : Program} {start final bound larger : Nat}
    (fits : program.Fits start final bound) (bounds : bound ≤ larger) :
    program.Fits start final larger := by
  rcases fits with ⟨peak, within, taken⟩
  exact ⟨peak, Nat.le_trans within bounds, taken⟩

/-! ## Bounded stacks -/

section Act

variable {capacity : Nat} {registers : Registers}

private theorem pushItem_of_room {value : Float32} {items : List Float32} (room : items.length < capacity) :
    pushItem capacity value items = .ok (value :: items) := if_pos room

private theorem pushItem_of_full {value : Float32} {items : List Float32} (full : capacity ≤ items.length) :
    pushItem capacity value items = .error (.stack .overflow) := if_neg (Nat.not_lt.mpr full)

/-- An instruction that has its operands overflows exactly where its result does not fit. -/
theorem act_of_heightAfter {instr : Instr} {items : List Float32} {next : Nat}
    (reads : instr.ReadsWithin registers.size) (bounded : items.length ≤ capacity)
    (stepped : instr.heightAfter items.length = some next) :
    (next ≤ capacity →
        ∃ after, instr.act capacity registers items = .ok after ∧ after.length = next) ∧
      (capacity < next → instr.act capacity registers items = .error (.stack .overflow)) := by
  rcases instr with ⟨op, value, index⟩
  cases op with
  | const =>
      cases stepped
      exact ⟨fun room => ⟨_, pushItem_of_room (by omega), rfl⟩,
        fun full => pushItem_of_full (by omega)⟩
  | var =>
      cases stepped
      rcases Registers.read_ok_iff.mpr (reads rfl) with ⟨value, read⟩
      simp only [Instr.act, read, ok_bind]
      exact ⟨fun room => ⟨_, pushItem_of_room (by omega), rfl⟩,
        fun full => pushItem_of_full (by omega)⟩
  | binary operator =>
      rcases items with _ | ⟨right, _ | ⟨left, below⟩⟩
      · cases stepped
      · cases stepped
      · cases stepped
        simp only [List.length_cons] at bounded
        exact ⟨fun _ => ⟨_, rfl, rfl⟩, fun full => by omega⟩
  | unary operator =>
      cases items with
      | nil => cases stepped
      | cons top below =>
          cases stepped
          simp only [List.length_cons] at bounded
          exact ⟨fun _ => ⟨_, rfl, rfl⟩, fun full => by omega⟩
  | dup =>
      cases items with
      | nil => cases stepped
      | cons top below =>
          cases stepped
          exact ⟨fun room => ⟨_, pushItem_of_room (by simp only [List.length_cons]; omega), rfl⟩,
            fun full => pushItem_of_full (by simp only [List.length_cons]; omega)⟩
  | drop => cases stepped

/-- An instruction that is carried out has the height that its operands give it. -/
private theorem heightAfter_of_act {instr : Instr} {items after : List Float32}
    (acted : instr.act capacity registers items = .ok after) :
    instr.heightAfter items.length = some after.length := by
  rcases instr with ⟨op, value, index⟩
  have pushed {value : Float32} {items after : List Float32} (result : pushItem capacity value items = .ok after) :
      items.length + 1 = after.length := by
    unfold pushItem at result
    split at result
    · cases result
      rfl
    · cases result
  cases op with
  | const => exact congrArg some (pushed acted)
  | var =>
      simp only [Instr.act] at acted
      cases read : registers.read index with
      | error cause => simp [read] at acted
      | ok value => exact congrArg some (pushed (by simpa [read] using acted))
  | binary operator =>
      rcases items with _ | ⟨right, _ | ⟨left, below⟩⟩
      · cases acted
      · cases acted
      · cases acted
        rfl
  | unary operator =>
      cases items with
      | nil => cases acted
      | cons top below =>
          cases acted
          rfl
  | dup =>
      cases items with
      | nil => cases acted
      | cons top below => exact congrArg some (pushed acted)
  | drop => cases acted

/-- A program that runs to its end has a course. -/
theorem course_of_act {program : Program} {items after : List Float32}
    (acted : program.act capacity registers items = .ok after) :
    ∃ peak, program.course items.length = some { final := after.length, peak } := by
  induction program generalizing items with
  | nil =>
      cases acted
      exact ⟨_, rfl⟩
  | cons instr rest inductionHypothesis =>
      cases stepped : instr.act capacity registers items with
      | error cause => simp [act, stepped] at acted
      | ok between =>
          rcases inductionHypothesis (by simpa [act, stepped] using acted) with ⟨peak, remaining⟩
          exact ⟨_, course_cons_eq_some_iff.mpr ⟨_, peak, heightAfter_of_act stepped, remaining, rfl⟩⟩

/-- A program whose course fits runs to its end. -/
theorem act_of_fits {program : Program} (items : List Float32) {final : Nat}
    (reads : program.ReadsWithin registers.size) (fits : program.Fits items.length final capacity) :
    ∃ after, program.act capacity registers items = .ok after ∧ after.length = final := by
  induction program generalizing items with
  | nil => exact ⟨items, rfl, (fits_nil.mp fits).1⟩
  | cons instr rest inductionHypothesis =>
      rcases fits_cons.mp fits with ⟨low, next, stepped, remaining⟩
      obtain ⟨between, acted, rfl⟩ :=
        (act_of_heightAfter (reads instr List.mem_cons_self) low stepped).1 (Fits.start_le remaining)
      obtain ⟨after, ran, height⟩ :=
        inductionHypothesis between (fun other later => reads other (List.mem_cons_of_mem _ later)) remaining
      exact ⟨after, by rw [act, acted, ok_bind, ran], height⟩

/-- A program that gets higher than the stack overflows. -/
theorem act_of_tall {program : Program} (items : List Float32) {final peak : Nat}
    (reads : program.ReadsWithin registers.size)
    (taken : program.course items.length = some { final, peak })
    (bounded : items.length ≤ capacity) (tall : capacity < peak) :
    program.act capacity registers items = .error (.stack .overflow) := by
  induction program generalizing items peak with
  | nil =>
      cases taken
      omega
  | cons instr rest inductionHypothesis =>
      rcases course_cons_eq_some_iff.mp taken with ⟨next, later, stepped, remaining, rfl⟩
      have higher : capacity < later := by omega
      have one := act_of_heightAfter (reads instr List.mem_cons_self) bounded stepped
      by_cases room : next ≤ capacity
      · rcases one.1 room with ⟨between, acted, rfl⟩
        rw [act, acted, ok_bind]
        exact inductionHypothesis between (fun other member => reads other (List.mem_cons_of_mem _ member))
          remaining room higher
      · rw [act, one.2 (Nat.lt_of_not_le room), error_bind]

/-- A program that leaves one number and fits on the stack has a value at every point. -/
theorem evaluate_of_fits {program : Program} (reads : program.ReadsWithin registers.size)
    (fits : program.Fits 0 1 Stack.evaluationCapacity) :
    ∃ value, program.evaluate registers = .ok value := by
  rcases act_of_fits [] reads fits with ⟨after, ran, height⟩
  rcases List.length_eq_one_iff.mp height with ⟨value, rfl⟩
  exact ⟨value, by rw [evaluate_eq, ran]; rfl⟩

/-- A program that gets higher than the stack has no value at any point. -/
theorem evaluate_of_tall {program : Program} {final peak : Nat}
    (reads : program.ReadsWithin registers.size)
    (taken : program.course 0 = some { final, peak }) (tall : Stack.evaluationCapacity < peak) :
    program.evaluate registers = .error (.stack .overflow) := by
  rw [evaluate_eq, act_of_tall [] reads taken (Nat.zero_le _) tall, error_bind]

end Act

end Program

end EvoRaster
