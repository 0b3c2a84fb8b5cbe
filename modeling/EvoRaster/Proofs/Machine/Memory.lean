import EvoRaster.Machine.Run
import EvoRaster.Proofs.Outcome.Ensures

/-!
Contract: the machine without any guard on its memory.

Owns:
- `Memory`, which has a cell at every signed place and keeps a log of what is done to it;
- `Code.execute`, the run of code in such memory, where only the tests that the machine itself makes stand between
  a slot and the cells around the buffer;
- `Log.Sound`, by which every access of a log is inside the buffer and every cell is written before it is read;
- `Mirrors`, by which a step does in memory what it does to a frame, for each kind of slot;
- `Code.execute_tracks`: the run does in memory what `Code.runFrom` does in its buffer, its log is sound, and the
  cells around the buffer stay as they are.

A buffer whose length is part of its type cannot be left. That the tests are enough for this is proved here,
where places are integers.
-/

namespace EvoRaster

/-- What a run does to its memory: it reads or writes a cell, or it sets the number of live cells. -/
inductive Event where
  | read (place : Int)
  | write (place : Int)
  | live (height : Int)
deriving DecidableEq, Repr

/-- The events of a run, oldest first. -/
abbrev Log := List Event

structure Memory where
  cells : Int → Float32
  /-- The number of live cells. -/
  height : Int := 0
  log : Log := []

/-- A step in memory. It may fail, and leaves the memory in either case. -/
abbrev MemoryStep := ExceptT Fault (StateM Memory)

/-- The value of the register that a signed index names, if there is one. -/
def Registers.named? (registers : Registers) (index : Int) : Option Float32 :=
  (position? registers.size index).bind fun position => registers[position.val]?

theorem Registers.named?_of_position {registers : Registers} {index : Int} {position : Fin registers.size}
    (found : position? registers.size index = some position) :
    registers.named? index = registers[position.val]? := by
  rw [named?, found]
  rfl

private theorem Registers.named?_of_none {registers : Registers} {index : Int}
    (missing : position? registers.size index = none) : registers.named? index = none := by
  rw [named?, missing]
  rfl

namespace Memory

def load (place : Int) : MemoryStep Float32 := do
  modify fun memory => { memory with log := memory.log ++ [.read place] }
  return (← get).cells place

def store (place : Int) (value : Float32) : MemoryStep Unit :=
  modify fun memory =>
    { memory with
      cells := fun other => if other = place then value else memory.cells other
      log := memory.log ++ [.write place] }

def setHeight (height : Int) : MemoryStep Unit :=
  modify fun memory => { memory with height, log := memory.log ++ [.live height] }

/-- Writes the cell above the live ones, whatever it is, and counts it as live. -/
def push (value : Float32) : MemoryStep Unit := do
  let height := (← get).height
  store height value
  setHeight (height + 1)

def requireRoom (capacity : Nat) : MemoryStep Unit := do
  if capacity ≤ (← get).height then throw .overflow

/-- Takes the right operand first. The cell of the left one is live still when it is overwritten. -/
def combine (operator : BinaryOp) : MemoryStep Unit := do
  let height := (← get).height
  if height < 2 then throw .underflow
  let right ← load (height - 1)
  let left ← load (height - 2)
  setHeight (height - 1)
  store (height - 2) (operator.combine left right)

def transform (operator : UnaryOp) : MemoryStep Unit := do
  let height := (← get).height
  if height < 1 then throw .underflow
  let operand ← load (height - 1)
  store (height - 1) (operator.apply operand)

def duplicate (capacity : Nat) : MemoryStep Unit := do
  let height := (← get).height
  if height < 1 then throw .underflow
  requireRoom capacity
  let top ← load (height - 1)
  push top

end Memory

open Memory in
/-- One slot in memory of which the cells from zero to `capacity` may be used. -/
def Slot.execute (registers : Registers) (capacity : Nat) (slot : Slot) : MemoryStep Unit :=
  match Op.ofNumber? slot.opcode with
  | some .const => do
      requireRoom capacity
      push slot.value
  | some .var => do
      requireRoom capacity
      match registers.named? slot.index with
      | some value => push value
      | none => throw .noRegister
  | some (.binary operator) => combine operator
  | some (.unary operator) => transform operator
  | some .dup => duplicate capacity
  | some .drop => throw .dropRefused
  | none => throw .unknownOpcode

/-- Runs code in memory and reads the value from the lowest cell. -/
def Code.execute (registers : Registers) (capacity : Nat) : Code → MemoryStep Float32
  | [] => do
      if (← get).height ≠ 1 then throw .itemCount
      Memory.load 0
  | slot :: rest => do
      slot.execute registers capacity
      execute registers capacity rest

/-! ## Sound logs -/

/-- The event touches a cell of the buffer, or leaves a number of live cells that the buffer can hold. -/
def Event.Within (capacity : Nat) : Event → Prop
  | .read place => 0 ≤ place ∧ place < capacity
  | .write place => 0 ≤ place ∧ place < capacity
  | .live height => 0 ≤ height ∧ height ≤ capacity

namespace Log

/-- Every access is inside the buffer, and a cell that is read was written before. -/
structure Sound (capacity : Nat) (log : Log) : Prop where
  within : ∀ event ∈ log, event.Within capacity
  written : ∀ earlier place later, log = earlier ++ .read place :: later → .write place ∈ earlier

/-- All cells below a height were written. -/
def Covers (log : Log) (height : Int) : Prop :=
  ∀ place, 0 ≤ place → place < height → .write place ∈ log

variable {capacity : Nat} {log : Log} {height : Int}

theorem sound_nil : Sound capacity [] := ⟨by simp, by simp⟩

theorem Sound.append (sound : Sound capacity log) {event : Event} (within : event.Within capacity)
    (written : ∀ place, event = .read place → .write place ∈ log) : Sound capacity (log ++ [event]) where
  within := by
    intro other member
    obtain earlier | rfl := List.mem_append.mp member |>.imp_right List.mem_singleton.mp
    · exact sound.within other earlier
    · exact within
  written := by
    intro earlier place later split
    rcases List.eq_nil_or_concat later with rfl | ⟨between, last, rfl⟩
    · obtain ⟨rfl, same⟩ := List.append_inj' split rfl
      exact written place (List.singleton_inj.mp same)
    · have inner : log = earlier ++ .read place :: between := by
        have split' : log ++ [event] = (earlier ++ .read place :: between) ++ [last] := by
          rw [split]
          simp
        exact (List.append_inj' split' rfl).1
      exact sound.written earlier place between inner

theorem Covers.append (covers : Covers log height) (later : Log) : Covers (log ++ later) height :=
  fun place least below => List.mem_append_left _ (covers place least below)

theorem Covers.mono (covers : Covers log height) {lower : Int} (bound : lower ≤ height) :
    Covers log lower := fun place least below => covers place least (by omega)

theorem Covers.write (covers : Covers log height) : Covers (log ++ [.write height]) (height + 1) := by
  intro place least below
  obtain rfl | lower : place = height ∨ place < height := by omega
  · simp
  · exact List.mem_append_left _ (covers place least lower)

end Log

/-! ## Memory around a buffer -/

/-- The cells of a buffer from zero on, and other cells around them. -/
def spread {capacity : Nat} (buffer : Vector Float32 capacity) (around : Int → Float32) : Int → Float32 :=
  fun place => if 0 ≤ place then (buffer[place.toNat]?).getD (around place) else around place

section Spread

variable {capacity : Nat} {buffer : Vector Float32 capacity} {around : Int → Float32}

theorem spread_natCast {place : Nat} (inside : place < capacity) :
    spread buffer around (place : Int) = buffer[place] := by
  simp [spread, inside]

theorem spread_set {place : Nat} (inside : place < capacity) (value : Float32) :
    spread (buffer.set place value) around =
      fun other => if other = (place : Int) then value else spread buffer around other := by
  funext other
  by_cases here : other = (place : Int)
  · rw [if_pos here, here, spread_natCast inside, Vector.getElem_set_self]
  · rw [if_neg here, spread, spread]
    by_cases least : 0 ≤ other
    · rw [if_pos least, if_pos least, Vector.getElem?_set_ne _ (by omega)]
    · rw [if_neg least, if_neg least]

end Spread

/-- The memory around a buffer, before a run. -/
def Memory.ofBuffer {capacity : Nat} (buffer : Vector Float32 capacity) (around : Int → Float32) : Memory :=
  { cells := spread buffer around }

/-- The memory holds the frame, and what was done to it so far is sound. -/
structure Tracks {capacity : Nat} (around : Int → Float32) (frame : Frame capacity) (memory : Memory) :
    Prop where
  cells : memory.cells = spread frame.buffer around
  height : memory.height = frame.height
  sound : memory.log.Sound capacity
  covers : memory.log.Covers memory.height

section Tracks

variable {capacity : Nat} {registers : Registers} {around : Int → Float32} {frame : Frame capacity}
  {memory : Memory}

theorem tracks_start (buffer : Vector Float32 capacity) (around : Int → Float32) :
    Tracks around (Frame.start buffer) (Memory.ofBuffer buffer around) where
  cells := rfl
  height := rfl
  sound := Log.sound_nil
  covers := fun place least below => by
    change place < 0 at below
    omega

variable {done : Unit → Memory → Prop} {failed : Fault → Memory → Prop}

/-- Reading a live cell. -/
theorem load_ensures {done : Float32 → Memory → Prop} (tracks : Tracks around frame memory) {position : Int}
    (place : Nat) (same : position = place) (live : place < frame.height) (inside : place < capacity)
    (holds : ∀ after, after.height = memory.height → Tracks around frame after →
      done frame.buffer[place] after) :
    Ensures (Memory.load position) memory done failed := by
  have known := tracks.height
  have cell : memory.cells place = frame.buffer[place] := by rw [tracks.cells, spread_natCast inside]
  subst same
  refine Ensures.bind (Ensures.of_modify (Ensures.of_get_bind (Ensures.of_pure ?_)))
  change done (memory.cells place) _
  rw [cell]
  refine holds _ rfl { tracks with sound := ?_, covers := tracks.covers.append _ }
  refine tracks.sound.append ⟨by omega, by omega⟩ fun other reads => ?_
  obtain rfl : (place : Int) = other := by simpa using reads
  exact tracks.covers _ (by omega) (by omega)

/-- Overwriting a live cell. -/
theorem store_ensures (tracks : Tracks around frame memory) {position : Int} (place : Nat)
    (same : position = place) (live : place < frame.height) (value : Float32)
    (holds : ∀ after,
      Tracks around { frame with buffer := frame.buffer.set place value (Nat.lt_of_lt_of_le live frame.height_le) }
        after → done () after) :
    Ensures (Memory.store position value) memory done failed := by
  have inside := Nat.lt_of_lt_of_le live frame.height_le
  subst same
  refine Ensures.of_modify (holds _
    { cells := ?_, height := tracks.height, sound := ?_, covers := tracks.covers.append _ })
  · rw [tracks.cells, spread_set inside]
  · exact tracks.sound.append ⟨by omega, by omega⟩ nofun

/-- Giving up cells at the top. -/
private theorem setHeight_ensures (tracks : Tracks around frame memory) {height : Int} (lower : Nat)
    (same : height = lower) (below : lower ≤ frame.height)
    (holds : ∀ after : Memory,
      Tracks around { frame with height := lower, height_le := Nat.le_trans below frame.height_le } after →
      done () after) :
    Ensures (Memory.setHeight height) memory done failed := by
  have bounded := frame.height_le
  have known := tracks.height
  subst same
  refine Ensures.of_modify (holds _ { cells := tracks.cells, height := rfl, sound := ?_, covers := ?_ })
  · exact tracks.sound.append ⟨by omega, by omega⟩ nofun
  · exact (tracks.covers.mono (show (lower : Int) ≤ memory.height by omega)).append _

/-- The step does in memory what the frame says. If it fails, it leaves everything as it was. -/
def Mirrors (around : Int → Float32) (frame : Frame capacity) (memory : Memory) (step : MemoryStep Unit)
    (expected : Frame.Step capacity) : Prop :=
  Ensures step memory (fun _ after => ∃ next, expected = .next next ∧ Tracks around next after)
    fun cause after => expected = .fault cause frame.buffer ∧ after = memory

/-- With room the cell above the live ones is in the buffer, and it is written before it is live. -/
theorem push_ensures (tracks : Tracks around frame memory) (room : frame.height < capacity) (value : Float32) :
    Ensures (Memory.push value) memory
      (fun _ after => ∃ next, frame.put value = .next next ∧ Tracks around next after) failed := by
  have known := tracks.height
  rw [Frame.put, dif_pos room]
  refine Ensures.of_get_bind (Ensures.bind (Ensures.of_modify (Ensures.of_modify ⟨_, rfl,
    { cells := ?_, height := ?_, sound := ?_, covers := ?_ }⟩)))
  · rw [spread_set room, ← known, tracks.cells]
  · rw [known]
    rfl
  · have written : (Event.write memory.height).Within capacity := ⟨by omega, by omega⟩
    have raised : (Event.live (memory.height + 1)).Within capacity := ⟨by omega, by omega⟩
    exact (tracks.sound.append written nofun).append raised nofun
  · exact tracks.covers.write.append _

/-- The test for room is that of the frame. -/
theorem requireRoom_mirrors (tracks : Tracks around frame memory) {rest : MemoryStep Unit}
    {next : Frame.Step capacity}
    (roomy : frame.height < capacity → Mirrors around frame memory rest next) :
    Mirrors around frame memory (Memory.requireRoom capacity >>= fun _ => rest)
      (if frame.height < capacity then next else .fault .overflow frame.buffer) := by
  have known := tracks.height
  refine Ensures.bind (Ensures.of_get_bind ?_)
  by_cases room : frame.height < capacity
  · rw [if_neg (by omega), if_pos room]
    exact Ensures.of_pure (roomy room)
  · rw [if_pos (by omega), if_neg room]
    exact Ensures.of_throw ⟨rfl, rfl⟩

theorem Frame.put_eq_ite (frame : Frame capacity) (value : Float32) :
    frame.put value = if frame.height < capacity then frame.put value else .fault .overflow frame.buffer := by
  by_cases room : frame.height < capacity
  · rw [if_pos room]
  · rw [if_neg room, put, dif_neg room]

private theorem combine_mirrors (tracks : Tracks around frame memory) (operator : BinaryOp) :
    Mirrors around frame memory (Memory.combine operator) (frame.combine operator) := by
  have known := tracks.height
  have bounded := frame.height_le
  unfold Memory.combine Frame.combine
  apply Ensures.of_get_bind
  by_cases operands : 2 ≤ frame.height
  · rw [if_neg (by omega), dif_pos operands]
    refine Ensures.bind (load_ensures tracks (frame.height - 1) (by omega) (by omega) (by omega) ?_)
    intro afterRight _ tracks
    refine Ensures.bind (load_ensures tracks (frame.height - 2) (by omega) (by omega) (by omega) ?_)
    intro afterLeft _ tracks
    refine Ensures.bind (setHeight_ensures tracks (frame.height - 1) (by omega) (by omega) ?_)
    intro lowered tracks
    have live : frame.height - 2 < frame.height - 1 := by omega
    exact store_ensures tracks (frame.height - 2) (by omega) live _ fun after tracks => ⟨_, rfl, tracks⟩
  · rw [if_pos (by omega), dif_neg operands]
    exact Ensures.of_throw ⟨rfl, rfl⟩

private theorem transform_mirrors (tracks : Tracks around frame memory) (operator : UnaryOp) :
    Mirrors around frame memory (Memory.transform operator) (frame.transform operator) := by
  have known := tracks.height
  have bounded := frame.height_le
  unfold Memory.transform Frame.transform
  apply Ensures.of_get_bind
  by_cases live : 1 ≤ frame.height
  · rw [if_neg (by omega), dif_pos live]
    refine Ensures.bind (load_ensures tracks (frame.height - 1) (by omega) (by omega) (by omega) ?_)
    intro loaded _ tracks
    exact store_ensures tracks (frame.height - 1) (by omega) (by omega) _ fun after tracks => ⟨_, rfl, tracks⟩
  · rw [if_pos (by omega), dif_neg live]
    exact Ensures.of_throw ⟨rfl, rfl⟩

private theorem duplicate_mirrors (tracks : Tracks around frame memory) :
    Mirrors around frame memory (Memory.duplicate capacity) frame.duplicate := by
  have known := tracks.height
  have bounded := frame.height_le
  unfold Memory.duplicate Frame.duplicate
  apply Ensures.of_get_bind
  by_cases live : 1 ≤ frame.height
  · rw [if_neg (by omega), dif_pos live]
    dsimp only
    rw [Frame.put_eq_ite]
    refine requireRoom_mirrors tracks fun room => ?_
    refine Ensures.bind (load_ensures tracks (frame.height - 1) (by omega) (by omega) (by omega) ?_)
    exact fun loaded _ tracks => push_ensures tracks room _
  · rw [if_pos (by omega), dif_neg live]
    exact Ensures.of_throw ⟨rfl, rfl⟩

/-- A slot does in memory what it does to the frame. -/
theorem Slot.execute_mirrors (slot : Slot) (registers : Registers) (tracks : Tracks around frame memory) :
    Mirrors around frame memory (slot.execute registers capacity) (frame.step registers slot) := by
  unfold execute Frame.step
  cases Op.ofNumber? slot.opcode with
  | none => exact Ensures.of_throw ⟨rfl, rfl⟩
  | some op =>
    cases op with
    | drop => exact Ensures.of_throw ⟨rfl, rfl⟩
    | binary operator => exact combine_mirrors tracks operator
    | unary operator => exact transform_mirrors tracks operator
    | dup => exact duplicate_mirrors tracks
    | const =>
        dsimp only
        rw [Frame.put_eq_ite]
        exact requireRoom_mirrors tracks fun room => push_ensures tracks room _
    | var =>
        refine requireRoom_mirrors tracks fun room => ?_
        cases found : position? registers.size slot.index with
        | none =>
            rw [Registers.named?_of_none found]
            exact Ensures.of_throw ⟨rfl, rfl⟩
        | some position =>
            rw [Registers.named?_of_position found, Array.getElem?_eq_getElem position.isLt]
            exact push_ensures tracks room _

/-- A run in memory has the outcome of a run in the buffer, and leaves the cells that it leaves. -/
theorem Code.execute_tracks (code : Code) (registers : Registers) (tracks : Tracks around frame memory) :
    Ensures (code.execute registers capacity) memory
      (fun value after => (code.runFrom registers frame).1 = .ok value ∧
        after.cells = spread (code.runFrom registers frame).2 around ∧ after.log.Sound capacity)
      (fun cause after => (code.runFrom registers frame).1 = .error cause ∧
        after.cells = spread (code.runFrom registers frame).2 around ∧ after.log.Sound capacity) := by
  induction code generalizing frame memory with
  | nil =>
      have known := tracks.height
      have bounded := frame.height_le
      unfold execute
      apply Ensures.of_get_bind
      by_cases single : frame.height = 1
      · rw [if_neg (by omega)]
        refine load_ensures tracks 0 rfl (by omega) (by omega) fun after _ tracks => ?_
        refine ⟨?_, tracks.cells, tracks.sound⟩
        simp only [runFrom, Frame.finish, dif_pos single]
      · rw [if_pos (by omega)]
        refine Ensures.of_throw ⟨?_, tracks.cells, tracks.sound⟩
        simp only [runFrom, Frame.finish, dif_neg single]
  | cons slot rest inductionHypothesis =>
      unfold execute
      refine Ensures.bind ((slot.execute_mirrors registers tracks).mono ?_ ?_)
      · rintro _ after ⟨next, stepped, tracks⟩
        simp only [runFrom, stepped]
        exact inductionHypothesis tracks
      · rintro cause after ⟨stepped, rfl⟩
        simp only [runFrom, stepped]
        exact ⟨trivial, tracks.cells, tracks.sound⟩

end Tracks

end EvoRaster
