import EvoRaster.Proofs.Height.Course
import EvoRaster.Proofs.Variation.Draws
import EvoRaster.Variation.Mutation

/-!
Contract: what a mutation puts in the place of a word.

Owns:
- `Replacement`, the words that the rule of a word can draw, three at most;
- `Program.mutate_reliable`, by which a mutation replaces one word in this way and fails only for want of
  words;
- `Replacement.fits` and `Program.splice_fits`, by which it keeps the course and needs at most one more cell.
-/

namespace EvoRaster

/-- The operators that a rule can draw. -/
def BinaryOp.Arithmetic (operator : BinaryOp) : Prop :=
  operator = .add ∨ operator = .sub ∨ operator = .mul

/-! ## The words of a replacement -/

/-- What can replace a value: another value, or the old one under an operator. -/
inductive ValueReplacement (registers : Int) (kept : Instr) : List Instr → Prop where
  | fresh {constant : Instr} (drawn : constant.Drawn) : ValueReplacement registers kept [constant]
  | register {index : Int} (least : 0 ≤ index) (below : index < registers) :
      ValueReplacement registers kept [{ op := .var, index }]
  | constantAfter {constant : Instr} {operator : BinaryOp} (drawn : constant.Drawn)
      (arithmetic : operator.Arithmetic) :
      ValueReplacement registers kept [kept, constant, Instr.binary operator]
  | constantBefore {constant : Instr} {operator : BinaryOp} (drawn : constant.Drawn)
      (arithmetic : operator.Arithmetic) :
      ValueReplacement registers kept [constant, kept, Instr.binary operator]
  | applied (operator : UnaryOp) : ValueReplacement registers kept [kept, Instr.unary operator]

/-- What can replace a word, by the class of its opcode. -/
inductive Replacement (registers : Int) (instr : Instr) : List Instr → Prop where
  | const {words : List Instr} (isConst : instr.op = .const)
      (replaced : ValueReplacement registers (Instr.const instr.value) words) :
      Replacement registers instr words
  | var {words : List Instr} (isVar : instr.op = .var)
      (replaced : ValueReplacement registers { op := .var, index := instr.index } words) :
      Replacement registers instr words
  | binary {old new : BinaryOp} (isBinary : instr.op = .binary old) (arithmetic : new.Arithmetic) :
      Replacement registers instr [Instr.binary new]
  | unary {old : UnaryOp} (isUnary : instr.op = .unary old) (new : UnaryOp) :
      Replacement registers instr [Instr.unary new]
  | combined {old : UnaryOp} {constant : Instr} {operator : BinaryOp} (isUnary : instr.op = .unary old)
      (drawn : constant.Drawn) (addsOrMultiplies : operator = .add ∨ operator = .mul) :
      Replacement registers instr [constant, Instr.binary operator]
  | removed {old : UnaryOp} (isUnary : instr.op = .unary old) : Replacement registers instr []
  | dup (isDup : instr.op = .dup) : Replacement registers instr [instr]

theorem ValueReplacement.length_le {registers : Int} {kept : Instr} {words : List Instr}
    (replaced : ValueReplacement registers kept words) : words.length ≤ 3 := by
  cases replaced with
  | fresh | register | constantAfter | constantBefore | applied => simp

/-- No word gives way to more than three. -/
theorem Replacement.length_le {registers : Int} {instr : Instr} {words : List Instr}
    (replaced : Replacement registers instr words) : words.length ≤ 3 := by
  cases replaced with
  | const isConst replaced => exact replaced.length_le
  | var isVar replaced => exact replaced.length_le
  | binary | unary | combined | removed | dup => simp

/-! ## What the rules draw -/

namespace Rule

/-- A draw inside a variation. -/
theorem lift_reliable {α : Type} {draw : Draw α} {promise : α → Prop}
    (reliable : Reliable .outOfWords draw promise) :
    Reliable (.draw .outOfWords) (liftM draw : Variation α) promise :=
  reliable.adapt

theorem lift_of_ok {α : Type} {draw : Draw α} {value : α} {source after : Source}
    (ended : draw source = (.ok value, after)) :
    (liftM draw : Variation α) source = (.ok value, after) := adapt_of_ok ended

theorem var_reliable {index : Int} (least : 0 ≤ index) :
    Reliable (.draw .outOfWords) (liftM (Instr.var index) : Variation Instr)
      (· = { op := .var, index }) := by
  rw [show Instr.var index = .ok { op := .var, index } from if_neg (by omega)]
  exact Reliable.of_pure rfl

private theorem register_reliable {registers : Int} (positive : 1 ≤ registers) :
    Reliable (.draw .outOfWords) (register registers) fun instr =>
      ∃ index : Int, 0 ≤ index ∧ index < registers ∧ instr = { op := .var, index } := by
  refine (lift_reliable (Draw.below_reliable (by omega))).bind fun index _ => ?_
  have bounded := index.isLt
  exact (var_reliable (by omega)).mono fun _ named => ⟨index.val, by omega, by omega, named⟩

private theorem replaceValue_reliable (kept : Instr) {registers : Int} (positive : 1 ≤ registers) :
    Reliable (.draw .outOfWords) (replaceValue kept registers) (ValueReplacement registers kept) := by
  have constant := lift_reliable Rule.constant_reliable
  refine (lift_reliable (Draw.below_reliable (by decide))).bind fun choice _ => ?_
  match choice with
  | 0 => exact constant.bind fun _ drawn => Reliable.of_pure (.fresh drawn)
  | 1 =>
      refine (register_reliable positive).bind ?_
      intro _ given
      rcases given with ⟨index, least, below, rfl⟩
      exact Reliable.of_pure (.register least below)
  | 2 => exact constant.bind fun _ drawn => Reliable.of_pure (.constantAfter drawn (.inl rfl))
  | 3 => exact constant.bind fun _ drawn => Reliable.of_pure (.constantBefore drawn (.inl rfl))
  | 4 => exact constant.bind fun _ drawn => Reliable.of_pure (.constantAfter drawn (.inr (.inl rfl)))
  | 5 => exact constant.bind fun _ drawn => Reliable.of_pure (.constantBefore drawn (.inr (.inl rfl)))
  | 6 => exact constant.bind fun _ drawn => Reliable.of_pure (.constantAfter drawn (.inr (.inr rfl)))
  | 7 => exact constant.bind fun _ drawn => Reliable.of_pure (.constantBefore drawn (.inr (.inr rfl)))
  | 8 => exact Reliable.of_pure (.applied .cos)
  | 9 => exact Reliable.of_pure (.applied .sin)
  | 10 => exact Reliable.of_pure (.applied .atan)

private theorem replaceBinary_reliable :
    Reliable .outOfWords replaceBinary fun words =>
      ∃ operator : BinaryOp, operator.Arithmetic ∧ words = [Instr.binary operator] := by
  refine (Draw.below_reliable (by decide)).bind fun choice _ => ?_
  match choice with
  | 0 => exact Reliable.of_pure ⟨.add, .inl rfl, rfl⟩
  | 1 => exact Reliable.of_pure ⟨.sub, .inr (.inl rfl), rfl⟩
  | 2 => exact Reliable.of_pure ⟨.mul, .inr (.inr rfl), rfl⟩

private theorem replaceUnary_reliable {instr : Instr} {old : UnaryOp} (registers : Int)
    (isUnary : instr.op = .unary old) :
    Reliable .outOfWords replaceUnary (Replacement registers instr) := by
  refine (Draw.below_reliable (by decide)).bind fun choice _ => ?_
  match choice with
  | 0 => exact Reliable.of_pure (.unary isUnary .cos)
  | 1 => exact Reliable.of_pure (.unary isUnary .sin)
  | 2 => exact Reliable.of_pure (.unary isUnary .atan)
  | 3 =>
      exact Rule.constant_reliable.bind fun _ drawn =>
        Reliable.of_pure (.combined isUnary drawn (.inl rfl))
  | 4 =>
      exact Rule.constant_reliable.bind fun _ drawn =>
        Reliable.of_pure (.combined isUnary drawn (.inr rfl))
  | 5 => exact Reliable.of_pure (.removed isUnary)

end Rule

/-- A word that has a rule, and if it is a variable, a register that can be named again. -/
structure Instr.Replaceable (instr : Instr) : Prop where
  notDrop : instr.op ≠ .drop
  register : instr.op = .var → 0 ≤ instr.index

theorem Rule.replace_reliable {instr : Instr} {registers : Int} (replaceable : instr.Replaceable)
    (positive : 1 ≤ registers) :
    Reliable (.draw .outOfWords) (replace instr registers) (Replacement registers instr) := by
  unfold replace
  cases isOp : instr.op with
  | const => exact (replaceValue_reliable _ positive).mono fun _ replaced => .const isOp replaced
  | var =>
      refine (var_reliable (replaceable.register isOp)).bind ?_
      rintro _ rfl
      exact (replaceValue_reliable _ positive).mono fun _ replaced => .var isOp replaced
  | binary old =>
      refine (lift_reliable replaceBinary_reliable).mono ?_
      intro _ given
      rcases given with ⟨operator, arithmetic, rfl⟩
      exact .binary isOp arithmetic
  | unary old => exact lift_reliable (replaceUnary_reliable registers isOp)
  | dup => exact Reliable.of_pure (.dup isOp)
  | drop => exact absurd isOp replaceable.notDrop

/-! ## What a mutation does -/

/-- A mutation replaces one word by words that its rule can draw. It fails only if the words run out. -/
theorem Program.mutate_reliable {program : Program} {registers : Int} (nonempty : program ≠ [])
    (replaceable : ∀ instr ∈ program, instr.Replaceable) (positive : 1 ≤ registers) :
    Reliable (.draw .outOfWords) (program.mutate registers) fun mutated =>
      ∃ (position : Nat) (inside : position < program.length) (words : List Instr),
        Replacement registers program[position] words ∧ mutated = program.splice position words := by
  unfold mutate
  rw [if_neg (by simpa using nonempty), if_neg (by omega)]
  have length : 0 < program.length := List.length_pos_iff.mpr nonempty
  refine (Rule.lift_reliable (Draw.below_reliable length)).bind fun position _ => ?_
  have member : program[position] ∈ program := List.getElem_mem position.isLt
  refine (Rule.replace_reliable (replaceable _ member) positive).bind fun words replaced => ?_
  exact Reliable.of_pure ⟨position, position.isLt, words, replaced, rfl⟩

/-- A mutation whose position and replacement are known. -/
theorem Program.mutate_of_drawn {program : Program} {registers : Int} {source between after : Source}
    {position : Fin program.length} {words : List Instr} (positive : 1 ≤ registers)
    (chosen : Draw.below program.length source = (.ok position, between))
    (replaced : Rule.replace program[position] registers between = (.ok words, after)) :
    program.mutate registers source = (.ok (program.splice position words), after) := by
  have nonempty : program ≠ [] := List.length_pos_iff.mp position.pos
  unfold mutate
  rw [if_neg (by simpa using nonempty), if_neg (by omega)]
  calc (liftM (Draw.below program.length) >>= _ : Variation Program) source
    _ = _ := bind_of_ok (Rule.lift_of_ok chosen)
    _ = _ := bind_of_ok replaced
    _ = (.ok (program.splice position words), after) := rfl

/-! ## What a replacement does to the course -/

theorem ValueReplacement.fits {registers : Int} {kept : Instr} {words : Program} {height : Nat}
    (replaced : ValueReplacement registers kept words)
    (pushes : ∀ height, kept.heightAfter height = some (height + 1)) :
    words.Fits height (height + 1) (height + 2) := by
  have constant : ∀ {constant : Instr}, constant.Drawn →
      ∀ height, constant.heightAfter height = some (height + 1) := by
    intro constant drawn height
    rcases drawn.eq_const with ⟨value, rfl⟩
    rfl
  cases replaced with
  | fresh drawn => exact Program.fits_singleton.mpr ⟨by omega, by omega, constant drawn _⟩
  | register least below => exact Program.fits_singleton.mpr ⟨by omega, by omega, rfl⟩
  | constantAfter drawn arithmetic =>
      exact Program.fits_cons.mpr ⟨by omega, _, pushes _,
        Program.fits_cons.mpr ⟨by omega, _, constant drawn _,
          Program.fits_singleton.mpr ⟨by omega, by omega, rfl⟩⟩⟩
  | constantBefore drawn arithmetic =>
      exact Program.fits_cons.mpr ⟨by omega, _, constant drawn _,
        Program.fits_cons.mpr ⟨by omega, _, pushes _,
          Program.fits_singleton.mpr ⟨by omega, by omega, rfl⟩⟩⟩
  | applied operator =>
      exact Program.fits_cons.mpr ⟨by omega, _, pushes _,
        Program.fits_singleton.mpr ⟨by omega, by omega, rfl⟩⟩

/-- A replacement leads where the word led that it replaces, with one more cell at most. -/
theorem Replacement.fits {registers : Int} {instr : Instr} {words : Program} {start next bound : Nat}
    (replaced : Replacement registers instr words) (stepped : instr.heightAfter start = some next)
    (low : start ≤ bound) (high : next ≤ bound) : words.Fits start next (bound + 1) := by
  cases replaced with
  | const isConst replaced =>
      simp only [Instr.heightAfter, isConst, Option.some.injEq] at stepped
      subst stepped
      exact (replaced.fits fun _ => rfl).mono (by omega)
  | var isVar replaced =>
      simp only [Instr.heightAfter, isVar, Option.some.injEq] at stepped
      subst stepped
      exact (replaced.fits fun _ => rfl).mono (by omega)
  | binary isBinary arithmetic =>
      match start with
      | 0 | 1 => simp [Instr.heightAfter, isBinary] at stepped
      | below + 2 =>
          simp only [Instr.heightAfter, isBinary] at stepped
          exact Program.fits_singleton.mpr ⟨by omega, by omega, stepped⟩
  | unary isUnary new =>
      match start with
      | 0 => simp [Instr.heightAfter, isUnary] at stepped
      | below + 1 =>
          simp only [Instr.heightAfter, isUnary] at stepped
          exact Program.fits_singleton.mpr ⟨by omega, by omega, stepped⟩
  | combined isUnary drawn addsOrMultiplies =>
      rcases drawn.eq_const with ⟨value, rfl⟩
      match start with
      | 0 => simp [Instr.heightAfter, isUnary] at stepped
      | below + 1 =>
          simp only [Instr.heightAfter, isUnary] at stepped
          exact Program.fits_cons.mpr ⟨by omega, _, rfl,
            Program.fits_singleton.mpr ⟨by omega, by omega, stepped⟩⟩
  | removed isUnary =>
      match start with
      | 0 => simp [Instr.heightAfter, isUnary] at stepped
      | below + 1 =>
          simp only [Instr.heightAfter, isUnary, Option.some.injEq] at stepped
          exact Program.fits_nil.mpr ⟨stepped, by omega⟩
  | dup isDup => exact Program.fits_singleton.mpr ⟨by omega, by omega, stepped⟩

/-- A program with one word replaced leads where it led before, with one more cell at most. -/
theorem Program.splice_fits {registers : Int} {program : Program} {position : Nat} {words : List Instr}
    {start final bound : Nat} (inside : position < program.length)
    (replaced : Replacement registers program[position] words) (fits : program.Fits start final bound) :
    (program.splice position words).Fits start final (bound + 1) := by
  have split : program = program.take position ++ (program[position] :: program.drop (position + 1)) := by
    rw [List.getElem_cons_drop, List.take_append_drop]
  rw [split] at fits
  rcases fits_append.mp fits with ⟨before, first, rest⟩
  rcases fits_cons.mp rest with ⟨low, after, stepped, second⟩
  unfold splice
  rw [List.append_assoc]
  exact fits_append.mpr ⟨before, first.mono (Nat.le_succ _),
    fits_append.mpr ⟨after, replaced.fits stepped low second.start_le, second.mono (Nat.le_succ _)⟩⟩

end EvoRaster
