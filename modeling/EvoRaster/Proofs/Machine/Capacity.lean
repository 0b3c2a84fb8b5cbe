import EvoRaster.Proofs.Machine.Agreement
import EvoRaster.Proofs.Machine.Memory

/-!
Contract: what the length of a buffer can change about a run.

Owns:
- `Slot.act` and `Code.runFree`, the run of any code on a stack without a bound, with the greatest number of items
  that it holds on the way;
- `Code.runFrom_free`, by which a buffer that holds so many items gives the outcome of the unbounded run, and a
  shorter one overflows;
- `Code.run_within_capacity`, which adds that a run never leaves its buffer and reads only what it wrote.

Code need not come from a program. Its opcodes may be any numbers; only the registers that it reads must exist.
-/

namespace EvoRaster

/-! ## Runs without a bound -/

/-- What a slot does to numbers on a stack without a bound, topmost first. -/
def Slot.act (registers : Registers) (slot : Slot) (items : List Float32) : Except Fault (List Float32) :=
  match Op.ofNumber? slot.opcode, items with
  | some .const, items => .ok (slot.value :: items)
  | some .var, items =>
      match registers.named? slot.index with
      | some value => .ok (value :: items)
      | none => .error .noRegister
  | some (.binary operator), right :: left :: below => .ok (operator.combine left right :: below)
  | some (.unary operator), top :: below => .ok (operator.apply top :: below)
  | some .dup, top :: below => .ok (top :: top :: below)
  | some .drop, _ => .error .dropRefused
  | some _, _ => .error .underflow
  | none, _ => .error .unknownOpcode

/-- How a run without a bound ends, and the greatest number of items on its stack until then. -/
structure FreeRun where
  outcome : Except Fault Float32
  peak : Nat

def Code.runFree (registers : Registers) : Code → List Float32 → FreeRun
  | [], items => { outcome := (Program.answer items).mapError EvalError.asFault, peak := items.length }
  | slot :: rest, items =>
      match slot.act registers items with
      | .ok next =>
          let later := runFree registers rest next
          { later with peak := max items.length later.peak }
      | .error cause => { outcome := .error cause, peak := items.length }

/-- A slot that reads a register reads one of the first `registers`. -/
def Slot.ReadsWithin (slot : Slot) (registers : Int) : Prop :=
  slot.opcode = Op.number .var → 0 ≤ slot.index ∧ slot.index < registers

/-- The registers that code reads are among the first `registers`. -/
def Code.ReadsWithin (code : Code) (registers : Int) : Prop :=
  ∀ slot ∈ code, slot.ReadsWithin registers

private theorem Code.length_le_peak (registers : Registers) (code : Code) (items : List Float32) :
    items.length ≤ (code.runFree registers items).peak := by
  cases code with
  | nil => exact Nat.le_refl _
  | cons slot rest =>
      unfold runFree
      cases slot.act registers items with
      | ok next => exact Nat.le_max_left _ _
      | error cause => exact Nat.le_refl _

/-! ## Runs in a buffer -/

section Bounded

variable {capacity : Nat} {registers : Registers}

/-- The items that a slot leaves, if the buffer can hold them. -/
def boundedItems (capacity : Nat) (items : List Float32) : Except Fault (List Float32) :=
  if items.length ≤ capacity then .ok items else .error .overflow

private theorem pushItem_boundedItems (value : Float32) (items : List Float32) :
    (pushItem capacity value items).mapError EvalError.asFault = boundedItems capacity (value :: items) := by
  unfold pushItem boundedItems
  by_cases room : items.length < capacity
  · rw [if_pos room, if_pos (by rw [List.length_cons]; exact room), mapError_ok]
  · rw [if_neg room, if_neg (by rw [List.length_cons]; exact room), mapError_error]
    rfl

theorem Frame.length_items_le (frame : Frame capacity) : frame.items.length ≤ capacity := by
  rw [length_items]
  exact frame.height_le

theorem boundedItems_of_le {items : List Float32} (fits : items.length ≤ capacity) :
    boundedItems capacity items = .ok items := if_pos fits

/-- A slot does to a frame what it does to a stack without a bound, unless the result has no room. -/
theorem Frame.step_free (frame : Frame capacity) {slot : Slot} (reads : slot.ReadsWithin registers.size) :
    (frame.step registers slot).items = slot.act registers frame.items >>= boundedItems capacity := by
  have fits := frame.length_items_le
  unfold step Slot.act
  cases named : Op.ofNumber? slot.opcode with
  | none => rfl
  | some op =>
    cases op with
    | drop => rfl
    | const => exact (frame.put_items _).trans (pushItem_boundedItems _ _)
    | var =>
        obtain ⟨least, below⟩ := reads (Op.ofNumber?_eq_some named)
        obtain ⟨position, found, -⟩ := read_of_compiled least below
        simp only [found, Registers.named?_of_position found, Array.getElem?_eq_getElem position.isLt, ok_bind]
        by_cases room : frame.height < capacity
        · rw [if_pos room]
          exact (frame.put_items _).trans (pushItem_boundedItems _ _)
        · rw [if_neg room, boundedItems, if_neg (by rw [List.length_cons, length_items]; omega)]
          rfl
    | binary operator =>
        dsimp only
        rw [combine_items]
        match given : frame.items with
        | [] | [_] => rfl
        | right :: left :: below =>
            rw [given, List.length_cons, List.length_cons] at fits
            exact (boundedItems_of_le (by rw [List.length_cons]; omega)).symm
    | unary operator =>
        dsimp only
        rw [transform_items]
        match given : frame.items with
        | [] => rfl
        | top :: below =>
            rw [given, List.length_cons] at fits
            exact (boundedItems_of_le (by rw [List.length_cons]; omega)).symm
    | dup =>
        dsimp only
        rw [duplicate_items]
        match frame.items with
        | [] => rfl
        | top :: below => exact pushItem_boundedItems _ _

/-- A run in a buffer ends as the unbounded run does, or overflows where the unbounded run does not fit. -/
theorem Code.runFrom_free {code : Code} (reads : code.ReadsWithin registers.size) (frame : Frame capacity) :
    (code.runFrom registers frame).1 =
      if (code.runFree registers frame.items).peak ≤ capacity then (code.runFree registers frame.items).outcome
      else .error .overflow := by
  have fits := frame.length_items_le
  induction code generalizing frame with
  | nil =>
      rw [if_pos (by exact fits)]
      exact frame.finish_items
  | cons slot rest inductionHypothesis =>
      have stepped := frame.step_free (reads slot List.mem_cons_self)
      rw [runFrom, runFree]
      cases acted : slot.act registers frame.items with
      | error cause =>
          rw [acted, error_bind] at stepped
          rw [if_pos (by exact fits)]
          cases taken : frame.step registers slot with
          | next after => rw [taken] at stepped; cases stepped
          | fault _ buffer =>
              rw [taken] at stepped
              cases stepped
              rfl
      | ok items =>
          rw [acted, ok_bind] at stepped
          dsimp only
          by_cases room : items.length ≤ capacity
          · rw [boundedItems_of_le room] at stepped
            cases taken : frame.step registers slot with
            | fault _ buffer => rw [taken] at stepped; cases stepped
            | next after =>
                rw [taken] at stepped
                cases stepped
                have later := inductionHypothesis (fun slot member => reads slot (List.mem_cons_of_mem _ member))
                  after after.length_items_le
                simpa only [Nat.max_le, fits, true_and] using later
          · -- The slot overflows, and the unbounded run is already too high.
            have tall := length_le_peak registers rest items
            rw [boundedItems, if_neg room] at stepped
            rw [if_neg (by omega)]
            cases taken : frame.step registers slot with
            | next after => rw [taken] at stepped; cases stepped
            | fault _ buffer =>
                rw [taken] at stepped
                cases stepped
                rfl

end Bounded

/-- Code that reads only registers that exist stays in its buffer, whatever its opcodes are: in a memory where
nothing but the tests of the machine guards the cells around the buffer, the number of live cells stays between zero
and the length of the buffer, every access is to a cell of the buffer, and a cell is read only after it was written.
The length of the buffer is all that matters of it. If it is at least the peak of the run without a bound, the
outcome is that of the run without a bound; otherwise the outcome is an overflow. -/
theorem Code.run_within_capacity (code : Code) (registers : Registers) (reads : code.ReadsWithin registers.size)
    {capacity : Nat} (buffer : Vector Float32 capacity) :
    (∀ around, ∃ after, (code.execute registers capacity) (Memory.ofBuffer buffer around) =
        ((code.run registers buffer).1, after) ∧
      after.cells = spread (code.run registers buffer).2 around ∧
      (∀ height : Int, .live height ∈ after.log → 0 ≤ height ∧ height ≤ capacity) ∧
      (∀ place : Int, .read place ∈ after.log ∨ .write place ∈ after.log → 0 ≤ place ∧ place < capacity) ∧
      ∀ (earlier : Log) (place : Int) (later : Log),
        after.log = earlier ++ .read place :: later → .write place ∈ earlier) ∧
    ((code.runFree registers []).peak ≤ capacity →
      (code.run registers buffer).1 = (code.runFree registers []).outcome) ∧
    (capacity < (code.runFree registers []).peak →
      (code.run registers buffer).1 = .error .overflow ∧ Fault.overflow.message = "Stack overflow") := by
  have answered := runFrom_free reads (Frame.start buffer)
  refine ⟨fun around => ?_, fun fits => answered.trans (if_pos fits), fun tall =>
    ⟨answered.trans (if_neg (Nat.not_le.mpr tall)), rfl⟩⟩
  have tracked := code.execute_tracks registers (tracks_start buffer around)
  rcases ended : code.execute registers capacity (Memory.ofBuffer buffer around) with ⟨outcome, after⟩
  have sound : outcome = (code.run registers buffer).1 ∧
      after.cells = spread (code.run registers buffer).2 around ∧ after.log.Sound capacity := by
    cases outcome with
    | ok value =>
        obtain ⟨same, cells, sound⟩ := tracked.of_ok ended
        exact ⟨same.symm, cells, sound⟩
    | error cause =>
        obtain ⟨same, cells, sound⟩ := tracked.of_error ended
        exact ⟨same.symm, cells, sound⟩
  obtain ⟨rfl, cells, sound⟩ := sound
  refine ⟨after, rfl, cells, fun height member => sound.within _ member, ?_, sound.written⟩
  rintro place (member | member)
  · exact sound.within _ member
  · exact sound.within _ member

/-- An opcode that nothing has is reached in three cells, and not in two. -/
theorem Code.run_within_capacity_three_deep :
    let code : Code := [⟨0, 1, 0⟩, ⟨1, 0, 0⟩, ⟨11, 0, 0⟩, ⟨-7, 0, 0⟩]
    code.ReadsWithin (#[0] : Registers).size ∧
      (code.run #[0] #v[0, 0, 0]).1 = .error .unknownOpcode ∧
      (code.run #[0] #v[0, 0]).1 = .error .overflow ∧
      ∃ after, code.execute #[0] 2 (Memory.ofBuffer #v[0, 0] fun _ => 0) = (.error .overflow, after) ∧
        ∀ place : Int, .read place ∈ after.log ∨ .write place ∈ after.log → 0 ≤ place ∧ place < 2 := by
  intro code
  have reads : code.ReadsWithin (#[0] : Registers).size := by
    simp [code, ReadsWithin, Slot.ReadsWithin, Op.number]
  have peak : (code.runFree #[0] []).peak = 3 := rfl
  have roomy := (code.run_within_capacity #[0] reads #v[0, 0, 0]).2.1 (Nat.le_of_eq peak)
  obtain ⟨inMemory, -, tight⟩ := code.run_within_capacity #[0] reads #v[0, 0]
  have overflows := (tight (by rw [peak]; decide)).1
  obtain ⟨after, ended, -, -, within, -⟩ := inMemory fun _ => 0
  exact ⟨reads, roomy, overflows, after, by rw [ended, overflows], within⟩

end EvoRaster
