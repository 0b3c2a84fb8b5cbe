import EvoRaster.Proofs.Evaluation.Dependence
import EvoRaster.Proofs.Folding.Normal
import EvoRaster.Proofs.Folding.Preservation

/-!
Contract: folding carries out every operator that it can.

Owns:
- `Program.nonConstants`, the words other than constants;
- `Reflects`, by which the constants at the end of a folded prefix are the topmost expressions without inputs;
- `Program.Remains`, for a word that folding keeps;
- `Program.fold_complete`: an operator remains if and only if an operand depends on an input, and a program without
  inputs becomes its value.

Folding looks at the last two words only. This finds every expression without inputs, because such an expression has
become a constant by the time it is needed, and words of other expressions do not come between two of them.
-/

namespace EvoRaster

/-! ## Words that are no constants -/

/-- The words of a program that are no constants. -/
def Program.nonConstants (program : Program) : Program := program.filter fun word => !word.isConst

theorem Program.nonConstants_append (first second : Program) :
    nonConstants (first ++ second) = first.nonConstants ++ second.nonConstants :=
  List.filter_append first second

theorem Program.nonConstants_of_constants {words : Program} (constants : ∀ word ∈ words, word.isConst = true) :
    words.nonConstants = [] := by
  rw [nonConstants, List.filter_eq_nil_iff]
  intro word member
  simp [constants word member]

theorem Program.inputs_nonConstants (program : Program) : program.nonConstants.inputs = program.inputs := by
  rw [inputs, nonConstants, List.filter_filter]
  refine List.filter_congr fun word _ => ?_
  by_cases isVar : word.op = .var <;> simp [isVar, Instr.isConst]

/-- A word joins the words that are no constants if it is none and takes none. No other word changes them. -/
theorem FoldedPrefix.nonConstants_extend {folded longer : FoldedPrefix} {instr : Instr}
    (extended : folded.extend instr = .ok longer) :
    Program.nonConstants (List.reverse longer) =
      Program.nonConstants (List.reverse folded) ++
        if folded.takes instr = false ∧ instr.isConst = false then [instr] else [] := by
  cases taken : folded.takes instr with
  | false =>
      obtain rfl := Except.ok.inj (extended.symm.trans (extend_kept (notDrop_of_extend extended) taken))
      rw [List.reverse_cons, Program.nonConstants_append]
      cases isConst : instr.isConst <;> simp [Program.nonConstants, isConst]
  | true =>
      obtain ⟨older, operands, words, contracts, constants, rfl, extended'⟩ := extend_taken taken
      obtain rfl := Except.ok.inj (extended.symm.trans extended')
      rw [if_neg (by simp), List.append_nil]
      simp only [List.reverse_append, List.reverse_reverse, Program.nonConstants_append,
        Program.nonConstants_of_constants constants, Program.nonConstants_of_constants contracts.constants]

/-! ## Constants at the end of a folded prefix -/

private theorem FoldedPrefix.endsInTwoConstants_of_newest {folded : FoldedPrefix}
    (noConstant : folded.endsInConstant = false) : folded.endsInTwoConstants = false := by
  match folded with
  | [] | [_] => rfl
  | newest :: second :: _ => simp [endsInTwoConstants, show newest.isConst = false from noConstant]

private theorem FoldedPrefix.endsInTwoConstants_of_second (newest : Instr) {older : FoldedPrefix}
    (noConstant : older.endsInConstant = false) : endsInTwoConstants (newest :: older) = false := by
  match older with
  | [] => rfl
  | second :: _ => simp [endsInTwoConstants, show second.isConst = false from noConstant]

/-- The constants at the end of a folded prefix are the values of the topmost expressions, down to the first one with an
input. Below that the prefix says nothing about single expressions. -/
inductive Reflects : FoldedPrefix → List Expression → Prop where
  | empty : Reflects [] []
  | constant {newest : Instr} {older : FoldedPrefix} {top : Expression} {below : List Expression}
      (isConst : newest.isConst = true) (closed : top.dependsOnInput = false)
      (equals : ∀ registers, newest.constant = top.value registers) (reflects : Reflects older below) :
      Reflects (newest :: older) (top :: below)
  | other {folded : FoldedPrefix} {top : Expression} {below : List Expression}
      (noConstant : folded.endsInConstant = false) (depends : top.dependsOnInput = true) :
      Reflects folded (top :: below)

namespace Reflects

open FoldedPrefix

variable {folded : FoldedPrefix} {stack after : List Expression} {instr : Instr}

/-- A word takes its operands as constants if and only if no operand depends on an input. -/
structure Step (folded : FoldedPrefix) (instr : Instr) (stack after : List Expression) (longer : FoldedPrefix) :
    Prop where
  extended : folded.extend instr = .ok longer
  reflects : Reflects longer after
  takes_iff : 0 < instr.arity →
    (folded.takes instr = false ↔ ∃ operand ∈ stack.take instr.arity, operand.dependsOnInput = true)

/-- An operator that finds no constants is kept, and its value depends on an input as its operand does. -/
theorem Step.kept {top operand : Expression} {below : List Expression} (operator : 0 < instr.arity)
    (kept : folded.takes instr = false) (member : operand ∈ stack.take instr.arity)
    (operandDepends : operand.dependsOnInput = true) (depends : top.dependsOnInput = true) :
    Step folded instr stack (top :: below) (instr :: folded) where
  extended := extend_kept (Instr.operator_of_arity operator).2.2 kept
  reflects := .other (Instr.operator_of_arity operator).1 depends
  takes_iff := fun _ => iff_of_true kept ⟨operand, member, operandDepends⟩

/-- An operator that finds its operands as constants leaves constants. -/
theorem Step.taken {longer : FoldedPrefix} (extended : folded.extend instr = .ok longer)
    (taken : folded.takes instr = true) (closed : ∀ operand ∈ stack.take instr.arity, operand.dependsOnInput = false)
    (reflects : Reflects longer after) : Step folded instr stack after longer where
  extended := extended
  reflects := reflects
  takes_iff := by
    intro _
    simp only [taken, Bool.true_eq_false, false_iff, not_exists, not_and, Bool.not_eq_true]
    exact closed

/-- The words that vary are those that are kept and are no constants. -/
private theorem Step.varies_iff {longer : FoldedPrefix} (step : Step folded instr stack after longer) :
    instr.varies stack = true ↔ folded.takes instr = false ∧ instr.isConst = false := by
  by_cases operator : 0 < instr.arity
  · obtain ⟨notConst, notVar, -⟩ := Instr.operator_of_arity operator
    rw [step.takes_iff operator]
    simp [Instr.varies, notVar, notConst]
  · have notDrop := notDrop_of_extend step.extended
    cases isOp : instr.op with
    | const | var => simp [Instr.varies, Instr.arity, Instr.isConst, takes, isOp]
    | drop => exact absurd isOp notDrop
    | unary | binary | dup => simp [Instr.arity, isOp] at operator

/-- A word that varies joins the words that are no constants, and no other word changes them. -/
theorem Step.nonConstants {longer : FoldedPrefix} (step : Step folded instr stack after longer) :
    Program.nonConstants (List.reverse longer) =
      Program.nonConstants (List.reverse folded) ++ if instr.varies stack then [instr] else [] := by
  simp only [nonConstants_extend step.extended, step.varies_iff]

/-- What a word does to a prefix reflects what it does to the expressions. -/
theorem extend (reflects : Reflects folded stack) (derives : instr.derive stack = some after) :
    ∃ longer, Step folded instr stack after longer := by
  obtain ⟨op, value, index⟩ := instr
  cases op with
  | const =>
      cases derives
      exact ⟨_, ⟨rfl, .constant rfl rfl (fun _ => rfl) reflects, nofun⟩⟩
  | var =>
      cases derives
      exact ⟨_, ⟨rfl, .other rfl rfl, nofun⟩⟩
  | drop => cases derives
  | unary operator =>
      cases reflects with
      | empty => cases derives
      | @constant newest older operand below isConst closed equals reflects =>
          cases derives
          refine ⟨Instr.literal (operator.apply newest.constant) :: older, .taken ?_ isConst ?_ ?_⟩
          · simp [FoldedPrefix.extend, endsInConstant, takeConstant, isConst, pure, Except.pure]
          · simp [Instr.arity, closed]
          · refine .constant rfl closed (fun registers => ?_) reflects
            rw [Instr.constant_literal, Expression.value_unary, equals registers]
      | @other _ operand below noConstant depends =>
          cases derives
          exact ⟨_, .kept Nat.one_pos noConstant List.mem_cons_self depends depends⟩
  | dup =>
      cases reflects with
      | empty => cases derives
      | @constant newest older operand below isConst closed equals reflects =>
          cases derives
          refine ⟨Instr.literal newest.constant :: Instr.literal newest.constant :: older, .taken ?_ isConst ?_ ?_⟩
          · simp [FoldedPrefix.extend, endsInConstant, takeConstant, isConst, pure, Except.pure]
          · simp [Instr.arity, closed]
          · have same (registers : Registers) : (Instr.literal newest.constant).constant = operand.value registers := by
              rw [Instr.constant_literal, equals registers]
            exact .constant rfl closed same (.constant rfl closed same reflects)
      | @other _ operand below noConstant depends =>
          cases derives
          exact ⟨_, .kept Nat.one_pos noConstant List.mem_cons_self depends depends⟩
  | binary operator =>
      cases reflects with
      | empty => cases derives
      | @other _ right lower noConstant depends =>
          obtain _ | ⟨left, below⟩ := lower
          · cases derives
          · cases derives
            have kept := endsInTwoConstants_of_newest noConstant
            exact ⟨_, .kept Nat.two_pos kept List.mem_cons_self depends (by simp [Expression.dependsOnInput, depends])⟩
      | @constant last older right lower isLast rightClosed rightEquals reflects =>
          cases reflects with
          | empty => cases derives
          | @other _ left below noConstant depends =>
              cases derives
              have kept := endsInTwoConstants_of_second last noConstant
              exact ⟨_, .kept Nat.two_pos kept (List.mem_cons_of_mem _ List.mem_cons_self) depends
                (by simp [Expression.dependsOnInput, depends])⟩
          | @constant first older left below isFirst leftClosed leftEquals reflects =>
              cases derives
              refine ⟨Instr.literal (operator.apply first.constant last.constant) :: older, .taken ?_ ?_ ?_ ?_⟩
              · simp [FoldedPrefix.extend, endsInTwoConstants, takeConstant, isFirst, isLast, pure, Except.pure]
              · simp [takes, endsInTwoConstants, isFirst, isLast]
              · simp [Instr.arity, rightClosed, leftClosed]
              · refine .constant rfl ?_ (fun registers => ?_) reflects
                · simp [Expression.dependsOnInput, rightClosed, leftClosed]
                · rw [Instr.constant_literal, Expression.value_binary, leftEquals registers, rightEquals registers]

/-- What a program does to a prefix reflects what it does to the expressions. -/
theorem foldlM {program : Program} (reflects : Reflects folded stack) (derives : program.derive stack = some after) :
    ∃ final, program.foldlM FoldedPrefix.extend folded = .ok final ∧ Reflects final after ∧
      Program.nonConstants (List.reverse final) =
        Program.nonConstants (List.reverse folded) ++ program.varying stack := by
  induction program generalizing folded stack with
  | nil =>
      cases derives
      exact ⟨folded, rfl, reflects, (List.append_nil _).symm⟩
  | cons instr rest inductionHypothesis =>
      obtain ⟨between, first, later⟩ := Option.bind_eq_some_iff.mp derives
      obtain ⟨longer, step⟩ := reflects.extend first
      obtain ⟨final, ended, reflects, words⟩ := inductionHypothesis step.reflects later
      refine ⟨final, by rw [List.foldlM_cons, step.extended, ok_bind, ended], reflects, ?_⟩
      rw [words, step.nonConstants, List.append_assoc, Program.varying, first]
      split <;> rfl

/-- Where no expression has inputs, the prefix is made of their values. -/
theorem constants (reflects : Reflects folded stack)
    (closed : ∀ expression ∈ stack, expression.dependsOnInput = false) (registers : Registers) :
    (∀ word ∈ folded, word.isConst = true) ∧
      folded.map Instr.constant = stack.map (Expression.value registers) := by
  induction reflects with
  | empty => exact ⟨nofun, rfl⟩
  | constant isConst _ equals _ inductionHypothesis =>
      rw [List.forall_mem_cons] at closed
      obtain ⟨constants, values⟩ := inductionHypothesis closed.2
      refine ⟨List.forall_mem_cons.mpr ⟨isConst, constants⟩, ?_⟩
      rw [List.map_cons, List.map_cons, values, equals registers]
  | other _ depends =>
      rw [List.forall_mem_cons, depends] at closed
      exact absurd closed.1 (by decide)

end Reflects

/-! ## Words that are kept -/

namespace FoldedPrefix

variable {instr : Instr} {newer older final : FoldedPrefix}

/-- A word that is no constant stays where it is, and so do the words before it. -/
private theorem extend_keeps (notConst : instr.isConst = false) {next : Instr}
    (extended : extend (newer ++ instr :: older) next = .ok final) :
    ∃ newer', final = newer' ++ instr :: older := by
  cases taken : takes (newer ++ instr :: older) next with
  | false =>
      have kept := extend_kept (notDrop_of_extend extended) taken
      exact ⟨next :: newer, Except.ok.inj (extended.symm.trans kept)⟩
  | true =>
      obtain ⟨below, operands, words, -, constants, split, contracted⟩ := extend_taken taken
      rw [Except.ok.inj (extended.symm.trans contracted)]
      -- The operands are constants, so the word stands before them.
      rcases List.append_eq_append_iff.mp split with ⟨between, reversed, rest⟩ | ⟨between, rfl, rfl⟩
      · cases between with
        | nil => exact ⟨words.reverse, by rw [rest, List.nil_append]⟩
        | cons head tail =>
            have same := (List.cons.inj rest).1
            have member : instr ∈ operands.reverse := by simp [reversed, same]
            rw [constants instr (List.mem_reverse.mp member)] at notConst
            cases notConst
      · exact ⟨words.reverse ++ between, by rw [List.append_assoc]⟩

private theorem foldlM_keeps (notConst : instr.isConst = false) {rest : Program}
    (ended : rest.foldlM extend (instr :: older) = .ok final) : ∃ newer, final = newer ++ instr :: older := by
  apply foldlM_invariant (fun folded => ∃ newer, folded = newer ++ instr :: older) _ ⟨[], rfl⟩ ended
  rintro folded longer next ⟨newer, rfl⟩ extended
  exact extend_keeps notConst extended

end FoldedPrefix

/-! ## Whole programs -/

namespace Program

/-- A program without inputs that has a value becomes the constant of this value. -/
theorem fold_of_value {program : Program} {registers : Registers} {value : Float32}
    (noVar : ∀ instr ∈ program, instr.op ≠ .var) (evaluated : program.evaluate registers = .ok value) :
    ∃ word, program.fold = .ok [word] ∧ word.isConst = true ∧ word.constant = value := by
  have acted := act_of_evaluate evaluated
  obtain ⟨peak, taken⟩ := course_of_act acted
  obtain ⟨after, derives, -⟩ := derive_of_course [] taken
  obtain ⟨final, ended, reflects, -⟩ := Reflects.empty.foldlM derives
  obtain ⟨constants, values⟩ := reflects.constants (closed_of_derive noVar (by simp) derives) registers
  rw [← act_of_derive derives acted, List.map_eq_singleton_iff] at values
  obtain ⟨word, rfl, same⟩ := values
  exact ⟨word, fold_of_foldlM ended, constants word List.mem_cons_self, same⟩

/-- The word between two parts of a program remains when the whole is folded: it stands behind the folded words of the
first part. -/
def Remains (before : Program) (instr : Instr) (after : Program) : Prop :=
  ∃ earlier later, before.fold = .ok earlier ∧ (before ++ instr :: after).fold = .ok (earlier ++ instr :: later)

/-- An operator remains if and only if it takes no constants. -/
theorem remains_iff {before after : Program} {instr : Instr} {folded : FoldedPrefix} (operator : 0 < instr.arity)
    (noDrop : ∀ word ∈ after, word.op ≠ .drop)
    (ended : before.foldlM FoldedPrefix.extend [] = .ok folded) :
    Remains before instr after ↔ folded.takes instr = false := by
  constructor
  · rintro ⟨earlier, later, first, whole⟩
    obtain rfl := Except.ok.inj (first.symm.trans (fold_of_foldlM ended))
    by_contra taken
    obtain ⟨older, operands, words, rfl, contracts, -⟩ :=
      FoldedPrefix.redex_of_takes (Bool.not_eq_false _ ▸ taken)
    refine isFolded_of_fold whole (operands ++ [instr]) words ⟨older.reverse, later, ?_⟩ contracts
    simp
  · intro kept
    obtain ⟨notConst, -, notDrop⟩ := Instr.operator_of_arity operator
    have extended := FoldedPrefix.extend_kept notDrop kept
    obtain ⟨final, finished⟩ := (FoldedPrefix.foldlM_ends after (instr :: folded)).1 noDrop
    obtain ⟨newer, rfl⟩ := FoldedPrefix.foldlM_keeps notConst finished
    have whole : (before ++ instr :: after).foldlM FoldedPrefix.extend [] = .ok (newer ++ instr :: folded) := by
      rw [List.foldlM_append, ended, ok_bind, List.foldlM_cons, extended, ok_bind, finished]
    refine ⟨folded.reverse, newer.reverse, fold_of_foldlM ended, ?_⟩
    rw [fold_of_foldlM whole]
    simp

/-- Let a program without `drop` find all its operands, on a stack without a bound. Then folding keeps an operator if
and only if at least one of its operands depends on an input, and it keeps all words that read inputs. The kept words
stay in their order, with nothing but constants between them. A program without inputs that has a value becomes the
constant of this value. -/
theorem fold_complete :
    (∀ program : Program, program.course 0 ≠ none → ∃ folded, program.fold = .ok folded ∧
        folded.nonConstants = program.varying [] ∧ folded.inputs = program.inputs ∧
        ∀ before instr after, program = before ++ instr :: after → 0 < instr.arity →
          ∃ stack, before.derive [] = some stack ∧ instr.arity ≤ stack.length ∧
            (Remains before instr after ↔ ∃ operand ∈ stack.take instr.arity, operand.dependsOnInput = true)) ∧
      ∀ (program : Program) (registers : Registers) (value : Float32), (∀ instr ∈ program, instr.op ≠ .var) →
        program.evaluate registers = .ok value →
          ∃ word, program.fold = .ok [word] ∧ word.isConst = true ∧ word.constant = value := by
  refine ⟨fun program runs => ?_, fun program registers value noVar evaluated => fold_of_value noVar evaluated⟩
  obtain ⟨⟨final, peak⟩, taken⟩ := Option.ne_none_iff_exists'.mp runs
  obtain ⟨stack, derives, -⟩ := derive_of_course [] taken
  obtain ⟨folded, ended, -, kept⟩ := Reflects.empty.foldlM derives
  have kept : nonConstants (List.reverse folded) = program.varying [] := kept
  refine ⟨folded.reverse, fold_of_foldlM ended, kept, ?_, ?_⟩
  · rw [← inputs_nonConstants, kept, inputs_varying derives]
  · rintro before instr after rfl operator
    rw [derive_append] at derives
    obtain ⟨between, derivesBefore, rest⟩ := Option.bind_eq_some_iff.mp derives
    obtain ⟨next, derivesInstr, -⟩ := Option.bind_eq_some_iff.mp rest
    obtain ⟨earlier, endedBefore, reflects, -⟩ := Reflects.empty.foldlM derivesBefore
    obtain ⟨longer, step⟩ := reflects.extend derivesInstr
    have noDrop : ∀ word ∈ after, word.op ≠ .drop := fun word member =>
      noDrop_of_fold (fold_of_foldlM ended) word (List.mem_append_right _ (List.mem_cons_of_mem _ member))
    refine ⟨between, derivesBefore, Instr.arity_le_of_derive derivesInstr, ?_⟩
    exact (remains_iff operator noDrop endedBefore).trans (step.takes_iff operator)

/-- The first copy is made of a constant and disappears, the second one is made of a product with an input. -/
theorem fold_complete_of_two_copies :
    let computed : Program := [{ op := .const, value := 0.1 }, Instr.unary .atan]
    let product : Program := [{ op := .var }, Instr.binary .mul, Instr.binary .mul]
    let copy : Instr := { op := .dup }
    let program := computed ++ copy :: (product ++ [copy, Instr.binary .add])
    let closed := computed ++ [copy, Instr.binary .mul]
    program.course 0 ≠ none ∧ ¬Remains computed copy (product ++ [copy, Instr.binary .add]) ∧
      Remains (computed ++ copy :: product) copy [Instr.binary .add] ∧
      (∃ folded, program.fold = .ok folded ∧
        folded.nonConstants = product ++ [copy, Instr.binary .add] ∧ folded.inputs = [{ op := .var }]) ∧
      (∀ instr ∈ closed, instr.op ≠ .var) ∧
      ∃ value word, closed.evaluate #[] = .ok value ∧ closed.fold = .ok [word] ∧ word.isConst = true ∧
        word.constant = value := by
  intro computed product copy program closed
  have runs : program.course 0 ≠ none := by decide
  have noVar : ∀ instr ∈ closed, instr.op ≠ .var := by
    simp [closed, computed, copy, Instr.unary, Instr.binary]
  obtain ⟨folded, folds, kept, inputs, remains⟩ := fold_complete.1 program runs
  have first : ¬Remains computed copy (product ++ [copy, Instr.binary .add]) := by
    obtain ⟨stack, derives, -, iff⟩ := remains computed copy _ rfl Nat.one_pos
    cases derives
    simp [iff, copy, Instr.arity, Expression.dependsOnInput]
  have second : Remains (computed ++ copy :: product) copy [Instr.binary .add] := by
    obtain ⟨stack, derives, -, iff⟩ := remains (computed ++ copy :: product) copy _ rfl Nat.one_pos
    cases derives
    simp [iff, copy, Instr.arity, Expression.dependsOnInput]
  obtain ⟨word, constant, isConst, value⟩ := fold_complete.2 closed #[] _ noVar rfl
  exact ⟨runs, first, second, ⟨folded, folds, kept, inputs⟩, noVar, _, word, rfl, constant, isConst, value⟩

end Program

end EvoRaster
