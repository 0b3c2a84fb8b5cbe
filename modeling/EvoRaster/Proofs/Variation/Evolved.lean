import EvoRaster.Proofs.Folding.Preservation
import EvoRaster.Proofs.Machine.Rendering
import EvoRaster.Proofs.Text.Postfix
import EvoRaster.Proofs.Variation.Replacement

/-!
Contract: the programs that a search can reach.

Owns:
- `Instr.Evolvable`, the words that such programs consist of;
- `Program.Evolved`, programs of such words that leave one number within a bound on the height;
- `mutate_evolved` and `mutateTimes_evolved`: each mutation raises the bound by one and nothing else;
- what can be done with such a program without a failure.

A constant is written again whenever it is kept. It was stored in single precision before, so it does not
change.
-/

namespace EvoRaster

/-- A word that a search can put into a program. -/
inductive Instr.Evolvable : Instr → Prop where
  | one : Evolvable (Instr.const 1)
  | drawn {constant : Instr} (drawn : constant.Drawn) : Evolvable constant
  | register {index : Int} (least : 0 ≤ index) (below : index < Config.registers) :
      Evolvable { op := .var, index }
  | binary {operator : BinaryOp} (arithmetic : operator.Arithmetic) : Evolvable (Instr.binary operator)
  | unary (operator : UnaryOp) : Evolvable (Instr.unary operator)

/-- A program of words that a search can use, which leaves one number and never needs more than `bound`
cells. -/
structure Program.Evolved (program : Program) (bound : Nat) : Prop where
  words : ∀ instr ∈ program, instr.Evolvable
  fits : program.Fits 0 1 bound

/-- A program that can be compiled, folded and printed, and that is mutated unless the words run out. -/
structure Program.Usable (program : Program) : Prop where
  compiles : ∃ machine, Machine.ofProgram Config.registers program = .ok machine
  folds : ∃ folded, program.fold = .ok folded
  printed : ∃ text, program.text = .ok text
  mutates : ∀ words cause source,
    program.mutate Config.registers (.listed words) = (.error cause, source) →
      cause = .draw .outOfWords ∧ source = .listed []

/-! ## Words -/

/-- The registers of a search have names. -/
theorem Program.ReadsWithin.text_ok {program : Program} (reads : program.ReadsWithin Config.registers) :
    ∃ text, program.text = .ok text := by
  refine Program.text_isOk_iff.mpr fun instr member isVar => ?_
  obtain ⟨least, below⟩ : 0 ≤ instr.index ∧ instr.index < Config.registers := reads instr member isVar
  unfold Config.registers at below
  omega

namespace Instr.Evolvable

variable {instr : Instr}

theorem not_drop (evolvable : instr.Evolvable) : instr.op ≠ .drop := by
  cases evolvable with
  | drawn drawn =>
      rcases drawn.eq_const with ⟨value, rfl⟩
      exact nofun
  | one | register | binary | unary => exact nofun

theorem readsWithin (evolvable : instr.Evolvable) : instr.ReadsWithin Config.registers := by
  cases evolvable with
  | drawn drawn =>
      rcases drawn.eq_const with ⟨value, rfl⟩
      exact nofun
  | register least below => exact fun _ => ⟨least, below⟩
  | one | binary | unary => exact nofun

theorem replaceable (evolvable : instr.Evolvable) : instr.Replaceable where
  notDrop := evolvable.not_drop
  register := fun isVar => (evolvable.readsWithin isVar).1

theorem const_const (value : Float) : Instr.const (Instr.const value).value = Instr.const value := by
  change ({ op := .const, value := Numeric.throughSingle (Numeric.throughSingle value) } : Instr) = _
  rw [Numeric.throughSingle_throughSingle]
  rfl

/-- A kept constant is the constant that was there before. -/
private theorem const_value (evolvable : instr.Evolvable) (isConst : instr.op = .const) :
    Instr.const instr.value = instr := by
  cases evolvable with
  | one => exact const_const 1
  | drawn drawn =>
      rcases drawn.eq_const with ⟨value, rfl⟩
      exact const_const value
  | register | binary | unary => cases isConst

/-- A kept variable is the variable that was there before. -/
private theorem var_index (evolvable : instr.Evolvable) (isVar : instr.op = .var) :
    ({ op := .var, index := instr.index } : Instr) = instr := by
  cases evolvable with
  | drawn drawn =>
      rcases drawn.eq_const with ⟨value, rfl⟩
      cases isVar
  | register least below => rfl
  | one | binary | unary => cases isVar

end Instr.Evolvable

theorem ValueReplacement.evolvable {kept : Instr} {words : List Instr}
    (replaced : ValueReplacement Config.registers kept words) (evolvable : kept.Evolvable) :
    ∀ instr ∈ words, instr.Evolvable := by
  cases replaced with
  | fresh drawn => simpa using .drawn drawn
  | register least below => simpa using .register least below
  | constantAfter drawn arithmetic => simpa using ⟨evolvable, .drawn drawn, .binary arithmetic⟩
  | constantBefore drawn arithmetic => simpa using ⟨.drawn drawn, evolvable, .binary arithmetic⟩
  | applied operator => simpa using ⟨evolvable, .unary operator⟩

/-- The rules put words into a program that a search can use. -/
theorem Replacement.evolvable {instr : Instr} {words : List Instr}
    (replaced : Replacement Config.registers instr words) (evolvable : instr.Evolvable) :
    ∀ word ∈ words, word.Evolvable := by
  cases replaced with
  | const isConst replaced =>
      rw [evolvable.const_value isConst] at replaced
      exact replaced.evolvable evolvable
  | var isVar replaced =>
      rw [evolvable.var_index isVar] at replaced
      exact replaced.evolvable evolvable
  | binary isBinary arithmetic => simpa using .binary arithmetic
  | unary isUnary new => simpa using .unary new
  | combined isUnary drawn addsOrMultiplies =>
      simpa using ⟨.drawn drawn, .binary (addsOrMultiplies.imp_right .inr)⟩
  | removed isUnary => simp
  | dup isDup => simpa using evolvable

/-! ## Mutation -/

namespace Program

variable {program : Program} {bound : Nat}

theorem seed_evolved : seed.Evolved 1 where
  words := by simpa [seed] using Instr.Evolvable.one
  fits := ⟨1, Nat.le_refl _, rfl⟩

namespace Evolved

theorem mono (evolved : program.Evolved bound) {larger : Nat} (bounds : bound ≤ larger) :
    program.Evolved larger where
  words := evolved.words
  fits := evolved.fits.mono bounds

theorem ne_nil (evolved : program.Evolved bound) : program ≠ [] := by
  rintro rfl
  exact absurd (fits_nil.mp evolved.fits).1 (by decide)

/-- A mutation succeeds unless the words run out, and raises the bound by one. -/
theorem mutate_evolved (evolved : program.Evolved bound) :
    Reliable (.draw .outOfWords) (program.mutate Config.registers) (Evolved · (bound + 1)) := by
  refine (mutate_reliable evolved.ne_nil (fun instr member => (evolved.words instr member).replaceable)
    (by decide)).mono ?_
  intro mutated given
  rcases given with ⟨position, inside, words, replaced, rfl⟩
  refine ⟨?_, splice_fits inside replaced evolved.fits⟩
  intro instr member
  have given := evolved.words program[position] (List.getElem_mem inside)
  rw [splice, List.append_assoc, List.mem_append, List.mem_append] at member
  rcases member with before | replacing | after
  · exact evolved.words instr (List.mem_of_mem_take before)
  · exact replaced.evolvable given instr replacing
  · exact evolved.words instr (List.mem_of_mem_drop after)

theorem mutateTimes_evolved (evolved : program.Evolved bound) (times : Nat) :
    Reliable (.draw .outOfWords) (program.mutateTimes Config.registers times)
      (Evolved · (bound + times)) := by
  induction times generalizing program bound with
  | zero => exact Reliable.of_pure evolved
  | succ times inductionHypothesis =>
      refine evolved.mutate_evolved.bind fun mutated one => ?_
      rw [Nat.add_comm times, ← Nat.add_assoc]
      exact inductionHypothesis one

/-! ## Uses of an evolved program -/

theorem readsWithin (evolved : program.Evolved bound) : program.ReadsWithin Config.registers :=
  fun instr member => (evolved.words instr member).readsWithin

theorem compiles (evolved : program.Evolved bound) :
    ∃ machine, Machine.ofProgram Config.registers program = .ok machine := by
  rcases Code.ofProgram_isOk_iff.mpr evolved.readsWithin with ⟨code, compiled⟩
  exact ⟨_, by rw [Machine.ofProgram_eq, compiled, map_ok]⟩

theorem folds (evolved : program.Evolved bound) : ∃ folded, program.fold = .ok folded := by
  rcases program.fold_follows fun instr member => (evolved.words instr member).not_drop with
    ⟨folded, folds, -⟩
  exact ⟨folded, folds⟩

theorem text_ok (evolved : program.Evolved bound) : ∃ text, program.text = .ok text :=
  evolved.readsWithin.text_ok

/-- On a stack as large as the bound an evolved program never fails, and leaves one number. -/
theorem runs (evolved : program.Evolved bound) {registers : Registers}
    (two : registers.size = Config.registers) {capacity : Nat} (roomy : bound ≤ capacity) :
    ∃ stack, program.runOn registers (Stack.empty capacity) = .ok stack ∧ stack.height = 1 := by
  have reads : program.ReadsWithin registers.size := by
    rw [two]
    exact evolved.readsWithin
  rcases act_of_fits [] reads (evolved.fits.mono roomy) with ⟨after, ran, height⟩
  have onStack := program.runOn_items registers (Stack.empty capacity)
  rw [Stack.items_empty, ran] at onStack
  cases ended : program.runOn registers (Stack.empty capacity) with
  | error cause => rw [ended] at onStack; cases onStack
  | ok stack =>
      rw [ended] at onStack
      cases onStack
      exact ⟨stack, rfl, by rw [← stack.length_items, height]⟩

/-- An evolved program has an error if it fits on the stack, and overflows if it does not. -/
theorem programError (evolved : program.Evolved bound) {goal : GrayImage} (model : ErrorModel)
    (inhabited : goal.pixels ≠ 0) :
    (program.Fits 0 1 Stack.evaluationCapacity → ∃ error, goal.programError model program = .ok error) ∧
      (¬program.Fits 0 1 Stack.evaluationCapacity →
        goal.programError model program = .error (.render (.fault .overflow))) := by
  refine ⟨goal.programError_of_fits model evolved.readsWithin, fun tall => ?_⟩
  rcases evolved.fits with ⟨peak, -, taken⟩
  refine GrayImage.programError_of_tall model evolved.readsWithin taken ?_ inhabited
  exact Nat.lt_of_not_le fun within => tall ⟨peak, within, taken⟩

theorem usable (evolved : program.Evolved bound) : program.Usable where
  compiles := evolved.compiles
  folds := evolved.folds
  printed := evolved.text_ok
  mutates := fun words _ _ failed => (evolved.mutate_evolved words).of_error failed

end Evolved

end Program

end EvoRaster
