import EvoRaster.Numeric.Precision

/-!
Contract: instruction words.

Owns:
- the opcodes, grouped by what they take from the stack, and their numbers;
- the instruction word and the two checked ways to build an operand word.

Every word carries both operand fields. Only `const` reads `value` and only `var` reads `index`, but
words are compared field by field, so a field that nothing reads still tells two words apart.
-/

namespace EvoRaster

inductive BinaryOp where
  | add | sub | mul | max | min
deriving DecidableEq, Repr

inductive UnaryOp where
  | cos | sin | atan
deriving DecidableEq, Repr

inductive Op where
  | const
  | var
  | binary (operator : BinaryOp)
  | unary (operator : UnaryOp)
  | drop
  | dup
deriving DecidableEq, Repr

namespace Op

/-- The opcodes in the order of their numbers. -/
def all : List Op :=
  [.const, .var, .binary .add, .binary .sub, .binary .mul, .binary .max, .binary .min,
    .unary .cos, .unary .sin, .unary .atan, .drop, .dup]

def number : Op → Nat
  | .const => 0
  | .var => 1
  | .binary .add => 2
  | .binary .sub => 3
  | .binary .mul => 4
  | .binary .max => 5
  | .binary .min => 6
  | .unary .cos => 7
  | .unary .sin => 8
  | .unary .atan => 9
  | .drop => 10
  | .dup => 11

/-- The opcode with the given number, if there is one. -/
def ofNumber? : Int → Option Op
  | .ofNat position => all[position]?
  | .negSucc _ => none

theorem ofNumber?_number (op : Op) : ofNumber? op.number = some op := by
  cases op with
  | binary operator => cases operator <;> rfl
  | unary operator => cases operator <;> rfl
  | const | var | drop | dup => rfl

theorem ofNumber?_eq_some {number : Int} {op : Op} (named : ofNumber? number = some op) :
    number = op.number := by
  cases number with
  | negSucc _ => cases named
  | ofNat position =>
      have numbered : ∀ place : Fin all.length, place.val = all[place].number := by decide
      obtain ⟨inside, rfl⟩ := List.getElem?_eq_some_iff.mp named
      exact congrArg Int.ofNat (numbered ⟨position, inside⟩)

end Op

structure Instr where
  op : Op
  value : Float := 0
  index : Int := 0
deriving DecidableEq

inductive InstrError where
  | negativeIndex (index : Int)
  | unknownOpcode (number : Int)
deriving DecidableEq, Repr

def InstrError.message : InstrError → String
  | .negativeIndex index => s!"Var index must be >= 0, got {index}"
  | .unknownOpcode number => s!"{number} is not a valid Op"

namespace Instr

/-- The word that pushes `value`, stored in single precision. -/
def const (value : Float) : Instr :=
  { op := .const, value := Numeric.throughSingle value }

/-- The word that pushes a single-precision number. -/
def literal (value : Float32) : Instr :=
  const (Numeric.widen value)

def var (index : Int) : Except InstrError Instr :=
  if index < 0 then .error (.negativeIndex index) else .ok { op := .var, index }

/-- A word with the given opcode number and with both operand fields taken as they are. -/
def raw (number : Int) (value : Float) (index : Int) : Except InstrError Instr :=
  match Op.ofNumber? number with
  | some op => .ok { op, value, index }
  | none => .error (.unknownOpcode number)

def binary (operator : BinaryOp) : Instr := { op := .binary operator }

def unary (operator : UnaryOp) : Instr := { op := .unary operator }

def isConst (instr : Instr) : Bool := instr.op = .const

/-- The number that `const` pushes, in the precision of the stack. -/
def constant (instr : Instr) : Float32 := Numeric.narrow instr.value

/-- Field-by-field comparison. Values are compared as numbers, so both zeros are the same value, and
two undefined values are the same too. -/
def sameWord (left right : Instr) : Bool :=
  left.op = right.op &&
    (left.value == right.value || (left.value.isNaN && right.value.isNaN)) &&
    left.index = right.index

end Instr

end EvoRaster
