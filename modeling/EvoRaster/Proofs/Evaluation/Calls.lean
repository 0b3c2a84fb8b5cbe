import EvoRaster.Numeric.FromEnd
import EvoRaster.Program.Text
import EvoRaster.Proofs.Evaluation.Items
import EvoRaster.Proofs.Outcome.Ensures
import EvoRaster.Proofs.Precision.Widening
import Mathlib.Data.List.Induction

/-!
Contract: calls on a stack, one after the other.

Owns:
- `Stack.Call`, and `Stack.replay`, the answers of a sequence of calls, of which some may fail;
- `Call.act`, what a call does to a list of numbers of bounded length, and `call_items`, by which a stack does the same;
- `Cells`, a buffer with a cursor that single assignments move and that any signed place can be asked for, and
  `Cells.perform_run`, by which the assignments do what the stack does and a call that fails has assigned nothing;
- `Balanced` and `Pending`, by which a history of calls tells which numbers were pushed and not yet taken;
- `Stack.calls_on_list`, for whole sequences.

A taken number stays in its cell until it is overwritten. Nothing shows this, because every call looks at the live cells
alone.
-/

namespace EvoRaster

namespace Stack

/-! ## Sequences of calls -/

inductive Call where
  | push (value : Float)
  | pop
  | result
deriving DecidableEq

/-- What a call answers. Calls that take a number answer it. -/
abbrev Answer := Except StackError (Option Float32)

/-- The answers of a sequence of calls, and the state after the last of them. -/
def replay {σ ρ : Type} (step : σ → Call → ρ × σ) : σ → List Call → List ρ × σ
  | state, [] => ([], state)
  | state, call :: rest =>
      let first := step state call
      let later := replay step first.2 rest
      (first.1 :: later.1, later.2)

section Replay

variable {σ ρ : Type} {step : σ → Call → ρ × σ}

theorem length_replay (state : σ) (calls : List Call) : (replay step state calls).1.length = calls.length := by
  induction calls generalizing state with
  | nil => rfl
  | cons call rest inductionHypothesis => exact congrArg Nat.succ (inductionHypothesis _)

theorem replay_concat (state : σ) (calls : List Call) (call : Call) :
    replay step state (calls ++ [call]) =
      ((replay step state calls).1 ++ [(step (replay step state calls).2 call).1],
        (step (replay step state calls).2 call).2) := by
  induction calls generalizing state with
  | nil => rfl
  | cons first rest inductionHypothesis =>
      simp only [List.cons_append, replay, inductionHypothesis]

/-- States that correspond and do the same at each call do the same in a sequence of calls. -/
private theorem replay_map {σ' ρ' : Type} {step' : σ' → Call → ρ' × σ'} (states : σ → σ') (answers : ρ → ρ')
    (each : ∀ state call, step' (states state) call = Prod.map answers states (step state call)) (state : σ)
    (calls : List Call) :
    replay step' (states state) calls = Prod.map (List.map answers) states (replay step state calls) := by
  induction calls generalizing state with
  | nil => rfl
  | cons call rest inductionHypothesis =>
      simp only [replay, each, Prod.map_fst, Prod.map_snd, inductionHypothesis]
      rfl

end Replay

variable {capacity : Nat}

/-- After a call that failed, the caller goes on with the stack that it had. -/
def settle (stack : Stack capacity) : Except StackError (Option Float32 × Stack capacity) → Answer × Stack capacity
  | .ok (answer, next) => (.ok answer, next)
  | .error cause => (.error cause, stack)

def call (stack : Stack capacity) : Call → Answer × Stack capacity
  | .push value => stack.settle ((stack.pushRounded value).map fun next => (none, next))
  | .pop => stack.settle (stack.pop.map fun (value, next) => (some value, next))
  | .result => stack.settle (stack.result.map fun (value, next) => (some value, next))

/-! ## Calls on lists -/

/-- What a call does to a list of numbers, the latest one first, of which there may be `capacity`. -/
def Call.act (capacity : Nat) : List Float32 → Call → Answer × List Float32
  | items, .push value =>
      if items.length < capacity then (.ok none, Numeric.narrow value :: items) else (.error .overflow, items)
  | [], .pop => (.error .underflow, [])
  | top :: below, .pop => (.ok (some top), below)
  | [top], .result => (.ok (some top), [])
  | items, .result => (.error (.itemCount items.length), items)

theorem call_items (stack : Stack capacity) (call : Call) :
    call.act capacity stack.items = Prod.map id items (stack.call call) := by
  cases call with
  | push value =>
      by_cases room : stack.items.length < capacity
      · obtain ⟨next, pushed, pushedItems⟩ := stack.push_of_room (Numeric.narrow value) room
        rw [Call.act, if_pos room, Stack.call, pushRounded, pushed, ← pushedItems]
        rfl
      · rw [Call.act, if_neg room, Stack.call, pushRounded, stack.push_of_full _ room]
        rfl
  | pop =>
      rw [Stack.call]
      cases filled : stack.items with
      | nil =>
          rw [pop_of_nil filled]
          exact congrArg (Prod.mk _) filled.symm
      | cons top below =>
          obtain ⟨rest, popped, rfl⟩ := pop_of_cons filled
          rw [popped]
          rfl
  | result =>
      have height := stack.length_items
      rw [Stack.call, Stack.result, ← height]
      cases filled : stack.items with
      | nil =>
          rw [List.length_nil, if_neg (by decide)]
          exact congrArg (Prod.mk _) filled.symm
      | cons top below =>
          cases below with
          | nil =>
              obtain ⟨rest, popped, restItems⟩ := pop_of_cons filled
              rw [List.length_singleton, if_pos rfl, popped]
              exact congrArg (Prod.mk _) restItems.symm
          | cons second rest =>
              rw [if_neg (by simp)]
              exact congrArg (Prod.mk _) filled.symm

/-! ## Calls as assignments -/

/-- A buffer, and the place of the first cell that is not live. -/
structure Cells (capacity : Nat) where
  buffer : Vector Float32 capacity
  cursor : Int

inductive CellFault where
  | refused (cause : StackError)
  /-- There is no cell at this place, counted from either end. -/
  | noCell (place : Int)
deriving DecidableEq

/-- A step on cells. It may fail, and leaves the cells in either case. -/
abbrev CellStep (capacity : Nat) := ExceptT CellFault (StateM (Cells capacity))

/-- The cells of a stack. -/
def toCells (stack : Stack capacity) : Cells capacity := { buffer := stack.cells, cursor := stack.height }

namespace Cells

def load (place : Int) : CellStep capacity Float32 := do
  match position? capacity place with
  | some position => return (← get).buffer[position]
  | none => throw (.noCell place)

def store (place : Int) (value : Float32) : CellStep capacity Unit :=
  match position? capacity place with
  | some position => modify fun cells => { cells with buffer := cells.buffer.set position value }
  | none => throw (.noCell place)

def move (steps : Int) : CellStep capacity Unit :=
  modify fun cells => { cells with cursor := cells.cursor + steps }

/-- Writes first and moves the cursor afterwards. -/
def push (value : Float32) : CellStep capacity Unit := do
  let cursor := (← get).cursor
  if capacity ≤ cursor then throw (.refused .overflow)
  store cursor value
  move 1

/-- Moves the cursor first and reads afterwards. -/
def pop : CellStep capacity Float32 := do
  let cursor := (← get).cursor
  if cursor = 0 then throw (.refused .underflow)
  move (-1)
  load (← get).cursor

def result : CellStep capacity Float32 := do
  let cursor := (← get).cursor
  if cursor ≠ 1 then throw (.refused (.itemCount cursor.toNat))
  pop

/-- One call, and the cells after it. -/
def perform (cells : Cells capacity) : Call → Except CellFault (Option Float32) × Cells capacity
  | .push value => (do push (Numeric.narrow value); return none : CellStep capacity (Option Float32)) cells
  | .pop => (do return some (← pop) : CellStep capacity (Option Float32)) cells
  | .result => (do return some (← result) : CellStep capacity (Option Float32)) cells

/-- On the cells of a stack the step ends as the stack says, and if the stack refuses, it has assigned nothing. -/
def Mirrors {α : Type} (stack : Stack capacity) (step : CellStep capacity α)
    (expected : Except StackError (α × Stack capacity)) : Prop :=
  Ensures step stack.toCells (fun value after => ∃ next, expected = .ok (value, next) ∧ after = next.toCells)
    fun fault after => ∃ cause, expected = .error cause ∧ fault = .refused cause ∧ after = stack.toCells

section Steps

variable {cells : Cells capacity} {place : Nat} {failed : CellFault → Cells capacity → Prop}

theorem load_ensures (inside : place < capacity) {done : Float32 → Cells capacity → Prop}
    (holds : done cells.buffer[place] cells) : Ensures (load place) cells done failed := by
  have found : position? capacity (place : Int) = some ⟨place, inside⟩ := position?_eq_some_iff.mpr (.inl rfl)
  unfold load
  rw [found]
  exact Ensures.of_get_bind (Ensures.of_pure holds)

theorem store_ensures (inside : place < capacity) (value : Float32) {done : Unit → Cells capacity → Prop}
    (holds : done () { cells with buffer := cells.buffer.set place value }) :
    Ensures (store place value) cells done failed := by
  have found : position? capacity (place : Int) = some ⟨place, inside⟩ := position?_eq_some_iff.mpr (.inl rfl)
  unfold store
  rw [found]
  exact Ensures.of_modify holds

end Steps

variable {stack : Stack capacity}

private theorem push_mirrors (value : Float32) :
    Mirrors stack (push value) ((stack.push value).map fun next => ((), next)) := by
  rw [Stack.push]
  apply Ensures.of_get_bind
  by_cases room : stack.height < capacity
  · rw [if_neg (by simpa [toCells] using room), dif_pos room]
    exact Ensures.bind (store_ensures room value (Ensures.of_modify ⟨_, rfl, rfl⟩))
  · rw [if_pos (by simpa [toCells] using room), dif_neg room]
    exact Ensures.of_throw ⟨_, rfl, rfl, rfl⟩

theorem pop_mirrors : Mirrors stack pop stack.pop := by
  have bounded := stack.height_le
  rw [Stack.pop]
  apply Ensures.of_get_bind
  by_cases live : 0 < stack.height
  · rw [if_neg (by simpa [toCells] using live.ne'), dif_pos live]
    have lowered : (stack.height : Int) + -1 = (stack.height - 1 : Nat) := by omega
    refine Ensures.bind (Ensures.of_modify (Ensures.of_get_bind ?_))
    change Ensures (load (stack.height + -1)) _ _ _
    rw [lowered]
    refine load_ensures (by omega) ⟨_, rfl, ?_⟩
    exact congrArg (Cells.mk stack.cells) lowered
  · rw [if_pos (by simpa [toCells] using live), dif_neg live]
    exact Ensures.of_throw ⟨_, rfl, rfl, rfl⟩

private theorem result_mirrors : Mirrors stack result stack.result := by
  rw [Stack.result]
  apply Ensures.of_get_bind
  by_cases single : stack.height = 1
  · rw [if_neg (by simpa [toCells] using single), if_pos single]
    exact pop_mirrors
  · rw [if_pos (by simpa [toCells] using single), if_neg single]
    exact Ensures.of_throw ⟨_, rfl, rfl, rfl⟩

theorem Mirrors.run {α : Type} {step : CellStep capacity α} {expected : Except StackError (α × Stack capacity)}
    (mirrors : Mirrors stack step expected) (answer : α → Option Float32) :
    (do return answer (← step) : CellStep capacity (Option Float32)) stack.toCells =
      Prod.map (·.mapError CellFault.refused) toCells
        (stack.settle (expected.map fun (value, next) => (answer value, next))) := by
  rcases ended : step stack.toCells with ⟨fault | value, after⟩
  · obtain ⟨cause, rfl, rfl, rfl⟩ := mirrors.of_error ended
    exact bind_of_error ended
  · obtain ⟨next, rfl, rfl⟩ := mirrors.of_ok ended
    exact bind_of_ok ended

/-- The assignments of a call do what the stack does. A call that fails has assigned nothing. -/
theorem perform_run (stack : Stack capacity) (call : Call) :
    stack.toCells.perform call = Prod.map (·.mapError CellFault.refused) toCells (stack.call call) := by
  cases call with
  | push value =>
      have mirrors : Mirrors stack (push (Numeric.narrow value)) _ := push_mirrors _
      have ran := mirrors.run fun _ => none
      rw [Stack.call, pushRounded]
      cases pushed : stack.push (Numeric.narrow value) <;> rw [pushed] at ran <;> exact ran
  | pop => exact pop_mirrors.run some
  | result => exact result_mirrors.run some

end Cells

/-! ## Histories -/

/-- Calls with their answers, oldest first. -/
abbrev History := List (Call × Answer)

/-- Whatever was pushed was taken again, as it was stored, later and in the opposite order. -/
inductive Balanced : History → Prop where
  | nil : Balanced []
  | refused {history : History} (balanced : Balanced history) (call : Call) (cause : StackError) :
      Balanced (history ++ [(call, .error cause)])
  | taken {history between : History} (balanced : Balanced history) (value : Float) (inner : Balanced between)
      (call : Call) :
      Balanced (history ++ ((.push value, .ok none) :: between ++ [(call, .ok (some (Numeric.narrow value)))]))

/-- The values that were pushed and not yet taken, the latest one first. -/
inductive Pending : History → List Float → Prop where
  | balanced {history : History} (balanced : Balanced history) : Pending history []
  | pushed {history later : History} {values : List Float} (pending : Pending history values) (value : Float)
      (balanced : Balanced later) : Pending (history ++ (.push value, .ok none) :: later) (value :: values)

namespace Pending

variable {history : History} {values : List Float}

theorem refused (pending : Pending history values) (call : Call) (cause : StackError) :
    Pending (history ++ [(call, .error cause)]) values := by
  cases pending with
  | balanced balanced => exact .balanced (balanced.refused call cause)
  | pushed pending value balanced =>
      rw [List.append_assoc, List.cons_append]
      exact pending.pushed value (balanced.refused call cause)

/-- The value that is taken is the latest one, and everything that was pushed after it was taken before. -/
theorem taken {value : Float} (pending : Pending history (value :: values)) (call : Call) :
    Pending (history ++ [(call, .ok (some (Numeric.narrow value)))]) values := by
  cases pending with
  | pushed pending value balanced =>
      rw [List.append_assoc]
      cases pending with
      | balanced before => exact .balanced (before.taken value balanced call)
      | pushed pending below before =>
          rw [List.append_assoc, List.cons_append]
          exact pending.pushed below (before.taken value balanced call)

end Pending

/-- A list that holds the pending values holds them after a call too. -/
private theorem Call.act_pending (capacity : Nat) {history : History} {values : List Float}
    (pending : Pending history values) (call : Call) :
    ∃ values', Pending (history ++ [(call, (call.act capacity (values.map Numeric.narrow)).1)]) values' ∧
      (call.act capacity (values.map Numeric.narrow)).2 = values'.map Numeric.narrow := by
  cases call with
  | push value =>
      by_cases room : (values.map Numeric.narrow).length < capacity
      · rw [act, if_pos room]
        exact ⟨value :: values, pending.pushed value .nil, rfl⟩
      · rw [act, if_neg room]
        exact ⟨values, pending.refused _ _, rfl⟩
  | pop =>
      match values with
      | [] => exact ⟨[], pending.refused _ _, rfl⟩
      | value :: values => exact ⟨values, pending.taken _, rfl⟩
  | result =>
      match values with
      | [value] => exact ⟨[], pending.taken _, rfl⟩
      | [] => exact ⟨[], pending.refused _ _, rfl⟩
      | first :: second :: rest => exact ⟨_, pending.refused _ _, rfl⟩

/-- A number that is answered is the latest of the list. -/
private theorem Call.head_of_act {items : List Float32} {call : Call} {top : Float32}
    (answered : (call.act capacity items).1 = .ok (some top)) : items.head? = some top := by
  cases call with
  | push value =>
      rw [act] at answered
      split at answered <;> cases answered
  | pop =>
      match items with
      | [] => cases answered
      | top :: below =>
          cases answered
          rfl
  | result =>
      match items with
      | [top] =>
          cases answered
          rfl
      | [] | first :: second :: rest => cases answered

/-- After any calls on an empty stack its numbers are the pending values, as they were stored. -/
private theorem exists_pending (capacity : Nat) (calls : List Call) :
    ∃ values, Pending (calls.zip (replay call (empty capacity) calls).1) values ∧
      (replay call (empty capacity) calls).2.items = values.map Numeric.narrow := by
  induction calls using List.reverseRecOn with
  | nil => exact ⟨[], .balanced .nil, rfl⟩
  | append_singleton calls next inductionHypothesis =>
      obtain ⟨values, pending, items⟩ := inductionHypothesis
      have acted := call_items (replay call (empty capacity) calls).2 next
      obtain ⟨values', pending', items'⟩ := next.act_pending capacity pending
      rw [← items, acted] at pending' items'
      rw [replay_concat, List.zip_append (length_replay _ calls).symm]
      exact ⟨values', pending', items'⟩

/-- A number that a call answers is what was stored of the latest value that was pushed and not yet taken. -/
private theorem exists_push_of_answer {calls : List Call} {next : Call} {top : Float32}
    (answered : ((replay call (empty capacity) calls).2.call next).1 = .ok (some top)) :
    ∃ before value between,
      calls.zip (replay call (empty capacity) calls).1 = before ++ (.push value, .ok none) :: between ∧
        Balanced between ∧ top = Numeric.narrow value := by
  obtain ⟨values, pending, items⟩ := exists_pending capacity calls
  have acted := congrArg Prod.fst (call_items (replay call (empty capacity) calls).2 next)
  have first := Call.head_of_act (acted.trans answered)
  rw [items] at first
  generalize calls.zip (replay call (empty capacity) calls).1 = history at pending ⊢
  cases pending with
  | balanced => cases first
  | @pushed before between _ pending value balanced =>
      cases first
      exact ⟨before, value, between, rfl, balanced, rfl⟩

/-! ## What a stack shows -/

/-- The texts of numbers in the description of a stack. -/
def itemText (value : Float32) : String :=
  "np.float32(" ++ String.ofList (Decimal.single Decimal.reportStyle value) ++ ")"

/-- The stack shows the numbers of a list, the latest one first, and fails where a list of bounded length does. -/
structure Shows (stack : Stack capacity) (items : List Float32) : Prop where
  bounded : items.length ≤ capacity
  height : stack.height = items.length
  /-- A number of single precision is stored as it is. -/
  push : ∀ value, stack.push value = stack.pushRounded (Numeric.widen value)
  description : stack.description = "EvalStack([" ++ ", ".intercalate (items.reverse.map itemText) ++ "])"
  push_fails : ∀ value cause, stack.pushRounded value = .error cause ↔ cause = .overflow ∧ items.length = capacity
  pop_fails : ∀ cause, stack.pop = .error cause ↔ cause = .underflow ∧ items = []
  result_fails : ∀ cause, stack.result = .error cause ↔ cause = .itemCount items.length ∧ items.length ≠ 1

private theorem pushRounded_error_iff (stack : Stack capacity) (value : Float) (cause : StackError) :
    stack.pushRounded value = .error cause ↔ cause = .overflow ∧ stack.items.length = capacity := by
  have bounded := stack.height_le
  rw [← length_items] at bounded
  rw [pushRounded]
  by_cases room : stack.items.length < capacity
  · obtain ⟨next, pushed, -⟩ := stack.push_of_room (Numeric.narrow value) room
    rw [pushed]
    exact iff_of_false nofun fun full => Nat.ne_of_lt room full.2
  · rw [stack.push_of_full _ room, Except.error.injEq, eq_comm]
    exact (and_iff_left (by omega)).symm

private theorem pop_error_iff (stack : Stack capacity) (cause : StackError) :
    stack.pop = .error cause ↔ cause = .underflow ∧ stack.items = [] := by
  cases filled : stack.items with
  | nil =>
      rw [pop_of_nil filled, Except.error.injEq, eq_comm]
      exact (and_iff_left rfl).symm
  | cons top below =>
      obtain ⟨rest, popped, -⟩ := pop_of_cons filled
      rw [popped]
      exact iff_of_false nofun fun empty => nomatch empty.2

private theorem result_error_iff (stack : Stack capacity) (cause : StackError) :
    stack.result = .error cause ↔ cause = .itemCount stack.items.length ∧ stack.items.length ≠ 1 := by
  rw [result, ← length_items]
  by_cases single : stack.items.length = 1
  · obtain ⟨top, filled⟩ := List.length_eq_one_iff.mp single
    obtain ⟨rest, popped, -⟩ := pop_of_cons filled
    rw [if_pos single, popped]
    simp [single]
  · rw [if_neg single, Except.error.injEq, eq_comm]
    exact (and_iff_left single).symm

private theorem shows_items (stack : Stack capacity) : stack.Shows stack.items where
  bounded := stack.length_items ▸ stack.height_le
  height := stack.length_items.symm
  push := fun value => by rw [pushRounded, Numeric.narrow_widen]
  description := by
    have live : stack.contents = stack.items.reverse := (List.reverse_reverse _).symm
    rw [description, live]
    rfl
  push_fails := stack.pushRounded_error_iff
  pop_fails := stack.pop_error_iff
  result_fails := stack.result_error_iff

/-! ## Whole sequences -/

/-- A stack does what a list of bounded length does, whatever calls were made before. Single assignments to a buffer and
a cursor do the same: a call that fails has assigned nothing, and no place outside of the buffer is asked for. What is
shown are the numbers of the list. A number that is answered is what was stored of the latest value that was pushed and
not yet taken. Cells that are not live have no part in any answer. -/
theorem calls_on_list (capacity : Nat) (calls : List Call) :
    ∃ answers stack,
      (create capacity).map (fun stack => replay call stack calls) = .ok (answers, stack) ∧
      replay (fun items call => call.act capacity items) [] calls = (answers, stack.items) ∧
      replay Cells.perform (Cells.mk (Vector.replicate capacity 0) 0) calls =
        (answers.map (·.mapError CellFault.refused), stack.toCells) ∧
      stack.Shows stack.items ∧
      (∀ next top, (stack.call next).1 = .ok (some top) →
        ∃ before value between, calls.zip answers = before ++ (.push value, .ok none) :: between ∧ Balanced between ∧
          top = Numeric.narrow value) ∧
      ∀ other : Stack capacity, other.items = stack.items → ∀ later,
        (replay call other later).1 = (replay call stack later).1 ∧
          (replay call other later).2.Shows (replay call stack later).2.items := by
  have onList (stack : Stack capacity) (later : List Call) :
      replay (fun items call => call.act capacity items) stack.items later =
        Prod.map (List.map id) items (replay call stack later) :=
    replay_map items id call_items stack later
  have onCells : replay Cells.perform (empty capacity).toCells calls =
      Prod.map (List.map (·.mapError CellFault.refused)) toCells (replay call (empty capacity) calls) :=
    replay_map toCells _ Cells.perform_run (empty capacity) calls
  refine ⟨(replay call (empty capacity) calls).1, (replay call (empty capacity) calls).2, rfl, ?_, onCells,
    shows_items _, fun next top => exists_push_of_answer, fun other same later => ?_⟩
  · have acted := onList (empty capacity) calls
    rw [List.map_id_fun] at acted
    exact acted
  · have acted := onList other later
    rw [same, onList, List.map_id_fun] at acted
    have items :
        (replay call (replay call (empty capacity) calls).2 later).2.items = (replay call other later).2.items :=
      congrArg Prod.snd acted
    refine ⟨(congrArg Prod.fst acted).symm, ?_⟩
    rw [items]
    exact shows_items _

/-- Of three values that were pushed on two cells, one was refused, one was taken, and the first is left. What stands in
the cell above it does not matter. -/
theorem calls_on_list_of_two_cells :
    let calls : List Call := [.push 1.5, .push 2, .push 3, .pop]
    let stack := (replay call (empty 2) calls).2
    let other : Stack 2 := { cells := #v[Numeric.narrow 1.5, 7], height := 1, height_le := by decide }
    (stack.call .result).1 = .ok (some (Numeric.narrow 1.5)) ∧
      (∃ before value between,
        calls.zip (replay call (empty 2) calls).1 = before ++ (.push value, .ok none) :: between ∧ Balanced between ∧
          Numeric.narrow 1.5 = Numeric.narrow value) ∧
      other.items = stack.items ∧ (replay call other [.pop, .pop]).1 = (replay call stack [.pop, .pop]).1 := by
  intro calls stack other
  have answered : (stack.call .result).1 = .ok (some (Numeric.narrow 1.5)) := rfl
  obtain ⟨answers, last, ran, listed, -, -, pushes, dead⟩ := calls_on_list 2 calls
  cases ran
  have same : other.items = stack.items := congrArg Prod.snd listed
  exact ⟨answered, pushes _ _ answered, same, (dead other same _).1⟩

end Stack

end EvoRaster
