import EvoRaster.Program.Evaluation
import EvoRaster.Proofs.Outcome.Except

/-!
Contract: the checked evaluation as a computation on a list of numbers.

Owns:
- `liveItems`, the live cells of a buffer as a list, whatever the other cells hold;
- `Instr.act` and `Program.act`, which say what a program does to the numbers on a stack;
- `evaluate_eq`, by which nothing else of the stack matters.

The topmost number stands first.
-/

namespace EvoRaster

/-! ## Live cells -/

/-- The first `height` cells of a buffer, the last of them first. -/
def liveItems {capacity : Nat} (cells : Vector Float32 capacity) (height : Nat) : List Float32 :=
  (cells.toList.take height).reverse

section LiveItems

variable {capacity height : Nat} {cells : Vector Float32 capacity}

@[simp] theorem liveItems_zero : liveItems cells 0 = [] := rfl

@[simp] theorem length_liveItems (bounded : height ≤ capacity) :
    (liveItems cells height).length = height := by
  simp [liveItems, bounded]

theorem liveItems_succ (room : height < capacity) :
    liveItems cells (height + 1) = cells[height] :: liveItems cells height := by
  simp [liveItems, List.take_add_one, room]

/-- Cells above the live ones do not count. -/
private theorem liveItems_set {position : Nat} (inside : position < capacity) (value : Float32)
    (above : height ≤ position) :
    liveItems (cells.set position value) height = liveItems cells height := by
  simp [liveItems, Vector.toList_set, List.take_set_of_le above]

theorem liveItems_push (room : height < capacity) (value : Float32) :
    liveItems (cells.set height value) (height + 1) = value :: liveItems cells height := by
  rw [liveItems_succ room, Vector.getElem_set_self, liveItems_set room value (Nat.le_refl _)]

end LiveItems

/-! ## The stack of the checked evaluator -/

namespace Stack

variable {capacity : Nat} {stack : Stack capacity}

/-- The numbers on a stack, topmost first. -/
def items (stack : Stack capacity) : List Float32 := liveItems stack.cells stack.height

theorem length_items : stack.items.length = stack.height := length_liveItems stack.height_le

@[simp] theorem items_empty : (Stack.empty capacity).items = [] := rfl

theorem push_of_room (stack : Stack capacity) (value : Float32) (room : stack.items.length < capacity) :
    ∃ next, stack.push value = .ok next ∧ next.items = value :: stack.items := by
  rw [length_items] at room
  rw [push, dif_pos room]
  exact ⟨_, rfl, liveItems_push room value⟩

theorem push_of_full (stack : Stack capacity) (value : Float32) (full : ¬stack.items.length < capacity) :
    stack.push value = .error .overflow := by
  rw [length_items] at full
  rw [push, dif_neg full]

theorem pop_of_nil (empty : stack.items = []) : stack.pop = .error .underflow := by
  have lowest : stack.height = 0 := by rw [← length_items, empty, List.length_nil]
  rw [pop, dif_neg (by omega)]

theorem pop_of_cons {top : Float32} {below : List Float32} (filled : stack.items = top :: below) :
    ∃ rest, stack.pop = .ok (top, rest) ∧ rest.items = below := by
  rcases stack with ⟨cells, height, bounded⟩
  cases height with
  | zero => simp [items] at filled
  | succ height =>
      rw [items, liveItems_succ bounded] at filled
      rcases List.cons.inj filled with ⟨rfl, rfl⟩
      exact ⟨_, by rw [pop, dif_pos (Nat.succ_pos _)]; rfl, rfl⟩

end Stack

/-! ## Instructions on lists of numbers -/

/-- Pushing on a list of numbers, topmost first, of which there may be `capacity`. -/
def pushItem (capacity : Nat) (value : Float32) (items : List Float32) :
    Except EvalError (List Float32) :=
  if items.length < capacity then .ok (value :: items) else .error (.stack .overflow)

/-- What an instruction does to the numbers on a stack, topmost first. -/
def Instr.act (capacity : Nat) (registers : Registers) (instr : Instr) (items : List Float32) :
    Except EvalError (List Float32) :=
  match instr.op, items with
  | .const, items => pushItem capacity instr.constant items
  | .var, items => do pushItem capacity (← registers.read instr.index) items
  | .binary operator, right :: left :: below => .ok (operator.apply left right :: below)
  | .unary operator, top :: below => .ok (operator.apply top :: below)
  | .dup, top :: below => pushItem capacity top (top :: below)
  | .drop, _ => .error .dropRefused
  | _, _ => .error (.stack .underflow)

theorem push_items {capacity : Nat} (stack : Stack capacity) (value : Float32) :
    (EvalError.ofStack (stack.push value)).map Stack.items = pushItem capacity value stack.items := by
  by_cases room : stack.items.length < capacity
  · rcases stack.push_of_room value room with ⟨next, pushed, items⟩
    rw [pushed, pushItem, if_pos room, ← items]
    rfl
  · rw [stack.push_of_full value room, pushItem, if_neg room]
    rfl

@[simp] theorem ofStack_ok {α : Type} (value : α) : EvalError.ofStack (.ok value) = .ok value := rfl

@[simp] theorem ofStack_error {α : Type} (cause : StackError) :
    EvalError.ofStack (α := α) (.error cause) = .error (.stack cause) := rfl

/-- The checked evaluator acts on the numbers of its stack and on nothing else. -/
theorem Instr.perform_items {capacity : Nat} (registers : Registers) (stack : Stack capacity)
    (instr : Instr) :
    (instr.perform registers stack).map Stack.items = instr.act capacity registers stack.items := by
  have bounded := stack.height_le
  rw [← Stack.length_items] at bounded
  unfold perform act
  cases instr.op with
  | const => exact push_items stack _
  | var =>
      cases registers.read instr.index with
      | error cause => rfl
      | ok value => exact push_items stack value
  | binary operator =>
      match filled : stack.items with
      | [] => simp [Stack.pop_of_nil filled]
      | right :: lower =>
          rcases Stack.pop_of_cons filled with ⟨rest, popped, items⟩
          match lower with
          | [] => simp [popped, Stack.pop_of_nil items]
          | left :: below =>
              rcases Stack.pop_of_cons items with ⟨last, poppedAgain, rfl⟩
              have room : last.items.length < capacity := by
                rw [filled, List.length_cons, List.length_cons] at bounded
                omega
              simp [popped, poppedAgain, push_items, pushItem, room]
  | unary operator =>
      match filled : stack.items with
      | [] => simp [Stack.pop_of_nil filled]
      | top :: below =>
          rcases Stack.pop_of_cons filled with ⟨rest, popped, rfl⟩
          have room : rest.items.length < capacity := by
            rw [filled, List.length_cons] at bounded
            omega
          simp [popped, push_items, pushItem, room]
  | dup =>
      match filled : stack.items with
      | [] => simp [Stack.pop_of_nil filled]
      | top :: below =>
          rcases Stack.pop_of_cons filled with ⟨rest, popped, rfl⟩
          have room : rest.items.length < capacity := by
            rw [filled, List.length_cons] at bounded
            omega
          rcases rest.push_of_room top room with ⟨next, pushed, items⟩
          simp [popped, pushed, push_items, items]
  | drop => rfl

namespace Program

/-- What a program does to the numbers on a stack, topmost first. -/
def act (capacity : Nat) (registers : Registers) :
    Program → List Float32 → Except EvalError (List Float32)
  | [], items => .ok items
  | instr :: rest, items => do
      let items ← instr.act capacity registers items
      act capacity registers rest items

theorem act_append (capacity : Nat) (registers : Registers) (first second : Program)
    (items : List Float32) :
    act capacity registers (first ++ second) items =
      first.act capacity registers items >>= second.act capacity registers := by
  induction first generalizing items with
  | nil => rfl
  | cons instr rest inductionHypothesis =>
      simp only [List.cons_append, act, bind_assoc]
      congr 1
      funext next
      exact inductionHypothesis next

theorem runOn_items {capacity : Nat} (registers : Registers) (program : Program)
    (stack : Stack capacity) :
    (program.runOn registers stack).map Stack.items =
      program.act capacity registers stack.items := by
  induction program generalizing stack with
  | nil => rfl
  | cons instr rest inductionHypothesis =>
      rw [runOn, act, ← instr.perform_items registers stack, map_bind]
      cases instr.perform registers stack with
      | error cause => rfl
      | ok next => exact inductionHypothesis next

/-- The only number of a list. -/
def answer : List Float32 → Except EvalError Float32
  | [value] => .ok value
  | items => .error (.stack (.itemCount items.length))

theorem result_items {capacity : Nat} (stack : Stack capacity) :
    (EvalError.ofStack stack.result).map Prod.fst = answer stack.items := by
  match filled : stack.items with
  | [] =>
      have height := stack.length_items
      rw [filled, List.length_nil] at height
      simp [Stack.result, ← height, answer]
  | [value] =>
      have height := stack.length_items
      rw [filled, List.length_singleton] at height
      rcases Stack.pop_of_cons filled with ⟨rest, popped, -⟩
      simp [Stack.result, ← height, popped, answer]
  | first :: second :: rest =>
      have height := stack.length_items
      rw [filled, List.length_cons, List.length_cons] at height
      simp [Stack.result, ← height, answer]

/-- The checked evaluation, as a computation on lists of numbers. -/
theorem evaluate_eq (program : Program) (registers : Registers) :
    program.evaluate registers =
      program.act Stack.evaluationCapacity registers [] >>= answer := by
  have ran := program.runOn_items registers (Stack.empty Stack.evaluationCapacity)
  rw [Stack.items_empty] at ran
  rw [evaluate, ← ran]
  cases program.runOn registers (Stack.empty Stack.evaluationCapacity) with
  | error cause => rfl
  | ok stack =>
      have found := result_items stack
      simp only [ok_bind, map_ok, ← found]
      cases EvalError.ofStack stack.result <;> rfl

/-- A program that has a value leaves it and nothing else. -/
theorem act_of_evaluate {program : Program} {registers : Registers} {value : Float32}
    (evaluated : program.evaluate registers = .ok value) :
    program.act Stack.evaluationCapacity registers [] = .ok [value] := by
  rw [evaluate_eq] at evaluated
  cases acted : program.act Stack.evaluationCapacity registers [] with
  | error cause => simp [acted] at evaluated
  | ok items =>
      rw [acted, ok_bind] at evaluated
      unfold answer at evaluated
      split at evaluated <;> cases evaluated
      rfl

end Program
end EvoRaster
