import EvoRaster.Proofs.Evaluation.Uniform
import EvoRaster.Proofs.Text.Constant

/-!
Contract: the postfix text of a program tells what the program does.

Owns:
- `Instr.SameMeaning`, words that do the same at every point, and `Program.evaluate_congr`;
- `keywords`, the words that are no numerals, and `Instr.text_cases`, by which every word is a keyword or a numeral;
- `Instr.sameMeaning_of_text`, by which one word has one meaning;
- `intercalate_injective`, by which words without blanks are found again between single blanks;
- `Program.text_identifies`, for whole programs.

Words are told apart in two steps. The blanks divide the text into words, and no word is a keyword and a numeral at
once. The minus sign of a negative constant has a digit or a letter behind it, and the operator stands alone.
-/

namespace EvoRaster

open Decimal (IsNumeral)

/-! ## Meaning -/

/-- The words have the same opcode, read the same register and push the same number in single precision, where zeros of
either sign are different numbers and there is one undefined value. What an opcode does not read may differ. -/
structure Instr.SameMeaning (instr other : Instr) : Prop extends Instr.SameShape instr other where
  constant : instr.op = .const → instr.constant = other.constant

section Meaning

variable {instr other : Instr}

theorem Instr.SameMeaning.perform_eq (same : instr.SameMeaning other) {capacity : Nat} (registers : Registers)
    (stack : Stack capacity) : instr.perform registers stack = other.perform registers stack := by
  obtain ⟨op, value, index⟩ := instr
  obtain ⟨op', value', index'⟩ := other
  obtain rfl : op = op' := same.op
  cases op with
  | const => exact congrArg (fun number => EvalError.ofStack (stack.push number)) (same.constant rfl)
  | var =>
      obtain rfl : index = index' := same.index rfl
      rfl
  | binary | unary | dup | drop => rfl

theorem Instr.SameMeaning.text_eq (same : instr.SameMeaning other) : instr.text = other.text := by
  obtain ⟨op, value, index⟩ := instr
  obtain ⟨op', value', index'⟩ := other
  obtain rfl : op = op' := same.op
  cases op with
  | const => exact congrArg (fun number => Except.ok (constantText number)) (same.constant rfl)
  | var =>
      obtain rfl : index = index' := same.index rfl
      rfl
  | binary | unary | dup | drop => rfl

end Meaning

namespace Program

variable {first second : Program}

private theorem runOn_congr (same : List.Forall₂ Instr.SameMeaning first second) {capacity : Nat}
    (registers : Registers) (stack : Stack capacity) : first.runOn registers stack = second.runOn registers stack := by
  induction same generalizing stack with
  | nil => rfl
  | cons head _ inductionHypothesis =>
      rw [runOn, runOn, head.perform_eq]
      congr 1
      funext next
      exact inductionHypothesis next

theorem evaluate_congr (same : List.Forall₂ Instr.SameMeaning first second) (registers : Registers) :
    first.evaluate registers = second.evaluate registers := by
  rw [evaluate, evaluate, runOn_congr same]

end Program

/-! ## Single words -/

/-- The words for opcodes other than `const`, with the opcode and the register that is read. -/
def keywords : List (String × Op × Int) :=
  [("x", .var, 0), ("y", .var, 1), ("+", .binary .add, 0), ("-", .binary .sub, 0), ("*", .binary .mul, 0),
    ("max", .binary .max, 0), ("min", .binary .min, 0), ("cos", .unary .cos, 0), ("sin", .unary .sin, 0),
    ("atan", .unary .atan, 0), ("drop", .drop, 0), ("dup", .dup, 0)]

/-- A word that can be found again between blanks. -/
def IsWord (text : List Char) : Prop := text ≠ [] ∧ ' ' ∉ text

private theorem isWord_of_isNumeral {text : List Char} (numeral : IsNumeral text) : IsWord text := by
  cases numeral with
  | undefined => exact ⟨nofun, by decide⟩
  | infinity sign => cases sign <;> exact ⟨nofun, by decide⟩
  | @digits sign first rest digit others =>
      have solid : ∀ c : Char, c.isDigit = true ∨ c = '.' → c ≠ ' ' := by
        rintro c (digit | point) rfl
        · cases digit
        · cases point
      refine ⟨List.append_ne_nil_of_right_ne_nil _ (List.cons_ne_nil _ _), fun blank => ?_⟩
      obtain mark | blank := List.mem_append.mp blank
      · cases sign
        · cases List.mem_singleton.mp mark
        · cases mark
      · obtain same | blank := List.mem_cons.mp blank
        · exact solid first (.inl digit) same.symm
        · exact solid ' ' (others ' ' blank) rfl

private theorem named_or_digit {text : List Char} (numeral : IsNumeral text) :
    text ∈ ["nan".toList, "inf".toList, "-inf".toList] ∨ text.any Char.isDigit = true := by
  cases numeral with
  | undefined => exact .inl (by decide)
  | infinity sign => cases sign <;> exact .inl (by decide)
  | digits sign digit others =>
      exact .inr (List.any_eq_true.mpr ⟨_, List.mem_append_right _ List.mem_cons_self, digit⟩)

section Keywords

variable {word : String} {op op' : Op} {register register' : Int}

private theorem isWord_of_mem_keywords (member : (word, op, register) ∈ keywords) : IsWord word.toList := by
  have all : ∀ entry ∈ keywords, entry.1.toList ≠ [] ∧ ' ' ∉ entry.1.toList := by decide
  exact all _ member

theorem not_isNumeral_of_mem_keywords (member : (word, op, register) ∈ keywords) : ¬IsNumeral word.toList := by
  have unnamed : ∀ entry ∈ keywords, entry.1.toList ∉ ["nan".toList, "inf".toList, "-inf".toList] := by decide
  have noDigit : ∀ entry ∈ keywords, entry.1.toList.any Char.isDigit = false := by decide
  intro numeral
  obtain named | digit := named_or_digit numeral
  · exact unnamed _ member named
  · exact Bool.false_ne_true ((noDigit _ member).symm.trans digit)

private theorem keywords_unique (member : (word, op, register) ∈ keywords)
    (member' : (word, op', register') ∈ keywords) : op = op' ∧ register = register' := by
  have different : (keywords.map Prod.fst).Nodup := by decide +kernel
  have same := List.inj_on_of_nodup_map different member member' rfl
  rwa [Prod.mk.injEq, Prod.mk.injEq, eq_self, true_and] at same

end Keywords

namespace Instr

/-- The word can be written: if it reads a register, the register has a name. -/
def IsNamed (instr : Instr) : Prop := instr.op = .var → instr.index = 0 ∨ instr.index = 1

instance (instr : Instr) : Decidable instr.IsNamed := inferInstanceAs (Decidable (_ → _))

variable {instr other : Instr} {word : String}

theorem text_isOk_iff : (∃ word, instr.text = .ok word) ↔ instr.IsNamed := by
  rcases instr with ⟨op, value, index⟩
  cases op with
  | var =>
      simp only [text, registerName, IsNamed, forall_const]
      split_ifs <;> simp [*]
  | const | binary | unary | drop | dup => exact iff_of_true ⟨_, rfl⟩ nofun

/-- Every word is the text of a constant or a keyword for the opcode and the register. -/
theorem text_cases (written : instr.text = .ok word) :
    instr.op = .const ∧ word = constantText instr.constant ∨
      instr.op ≠ .const ∧
        ∃ register, (word, instr.op, register) ∈ keywords ∧ (instr.op = .var → register = instr.index) := by
  rcases instr with ⟨op, value, index⟩
  cases op with
  | const =>
      cases written
      exact .inl ⟨rfl, rfl⟩
  | var =>
      simp only [text, registerName] at written
      split_ifs at written with first second
      · cases written
        exact .inr ⟨nofun, 0, by simp [keywords], fun _ => first.symm⟩
      · cases written
        exact .inr ⟨nofun, 1, by simp [keywords], fun _ => second.symm⟩
  | binary operator =>
      cases written
      exact .inr ⟨nofun, 0, by cases operator <;> simp [keywords, BinaryOp.token], nofun⟩
  | unary operator =>
      cases written
      exact .inr ⟨nofun, 0, by cases operator <;> simp [keywords, UnaryOp.token], nofun⟩
  | drop | dup =>
      cases written
      exact .inr ⟨nofun, 0, by simp [keywords], nofun⟩

theorem isWord_of_text (written : instr.text = .ok word) : IsWord word.toList := by
  obtain ⟨-, rfl⟩ | ⟨-, register, member, -⟩ := text_cases written
  · exact isWord_of_isNumeral (Decimal.isNumeral_constantText _)
  · exact isWord_of_mem_keywords member

/-- One word has one meaning. -/
theorem sameMeaning_of_text (written : instr.text = .ok word) (written' : other.text = .ok word) :
    instr.SameMeaning other := by
  obtain ⟨isConst, numeral⟩ | ⟨notConst, register, member, reads⟩ := text_cases written <;>
    obtain ⟨isConst', numeral'⟩ | ⟨-, register', member', reads'⟩ := text_cases written'
  · have constants := Decimal.constantText_injective (numeral.symm.trans numeral')
    exact ⟨⟨isConst.trans isConst'.symm, by simp [isConst]⟩, fun _ => constants⟩
  · have notNumeral := not_isNumeral_of_mem_keywords member'
    rw [numeral] at notNumeral
    exact absurd (Decimal.isNumeral_constantText _) notNumeral
  · have notNumeral := not_isNumeral_of_mem_keywords member
    rw [numeral'] at notNumeral
    exact absurd (Decimal.isNumeral_constantText _) notNumeral
  · obtain ⟨sameOp, sameRegister⟩ := keywords_unique member member'
    refine ⟨⟨sameOp, fun isVar => ?_⟩, fun isConst => absurd isConst notConst⟩
    rw [← reads isVar, sameRegister, reads' (sameOp ▸ isVar)]

end Instr

/-! ## Words in a row -/

/-- A row of words without blanks is empty only if there are no words. One empty word would look the same. -/
private theorem eq_nil_of_intercalate {words : List (List Char)} (solid : ∀ word ∈ words, IsWord word)
    (empty : [' '].intercalate words = []) : words = [] := by
  by_contra some
  have read := List.splitOn_intercalate ' ' (fun word member => (solid word member).2) some
  rw [empty] at read
  exact (solid [] (read ▸ List.mem_singleton_self [])).1 rfl

/-- Words without blanks are found again between single blanks. -/
theorem intercalate_injective {words words' : List (List Char)} (solid : ∀ word ∈ words, IsWord word)
    (solid' : ∀ word ∈ words', IsWord word) (same : [' '].intercalate words = [' '].intercalate words') :
    words = words' := by
  by_cases none : words = []
  · rw [none, List.intercalate_nil] at same
    rw [none, eq_nil_of_intercalate solid' same.symm]
  by_cases none' : words' = []
  · rw [none', List.intercalate_nil] at same
    exact absurd (eq_nil_of_intercalate solid same) none
  have read := List.splitOn_intercalate ' ' (fun word member => (solid word member).2) none
  have read' := List.splitOn_intercalate ' ' (fun word member => (solid' word member).2) none'
  rw [← read, same, read']

namespace Program

variable {program first second : Program}

theorem text_eq_ok_iff {written : String} :
    program.text = .ok written ↔ ∃ words, program.mapM Instr.text = .ok words ∧ written = " ".intercalate words := by
  rw [text]
  cases program.mapM Instr.text with
  | error cause => simp
  | ok words => simp [pure, Except.pure, eq_comm]

private theorem isWord_of_words {words : List String}
    (written : List.Forall₂ (fun instr word => instr.text = .ok word) program words) :
    ∀ word ∈ words.map String.toList, IsWord word := by
  rw [List.forall_mem_map]
  induction written with
  | nil => exact nofun
  | cons head _ inductionHypothesis =>
      exact List.forall_mem_cons.mpr ⟨Instr.isWord_of_text head, inductionHypothesis⟩

/-- One row of words has one meaning. -/
theorem sameMeaning_of_words {words : List String}
    (written : List.Forall₂ (fun instr word => instr.text = .ok word) first words)
    (written' : List.Forall₂ (fun instr word => instr.text = .ok word) second words) :
    List.Forall₂ Instr.SameMeaning first second := by
  induction written generalizing second with
  | nil =>
      cases written'
      exact .nil
  | cons head _ inductionHypothesis =>
      cases written' with
      | cons head' rest' => exact .cons (Instr.sameMeaning_of_text head head') (inductionHypothesis rest')

/-- Programs with one text have the same words in the same order, and so do the same. -/
theorem sameMeaning_of_text {written : String} (text : first.text = .ok written) (text' : second.text = .ok written) :
    List.Forall₂ Instr.SameMeaning first second := by
  obtain ⟨words, mapped, rfl⟩ := text_eq_ok_iff.mp text
  obtain ⟨words', mapped', same⟩ := text_eq_ok_iff.mp text'
  have written := forall₂_of_mapM mapped
  have written' := forall₂_of_mapM mapped'
  have rows := congrArg String.toList same
  rw [String.toList_intercalate, String.toList_intercalate] at rows
  have sameWords := intercalate_injective (isWord_of_words written) (isWord_of_words written') rows
  obtain rfl : words = words' := List.map_injective_iff.mpr (fun _ _ => String.toList_inj.mp) sameWords
  exact sameMeaning_of_words written written'

theorem text_congr (same : List.Forall₂ Instr.SameMeaning first second) : first.text = second.text := by
  have words : first.mapM Instr.text = second.mapM Instr.text := by
    induction same with
    | nil => rfl
    | cons head _ inductionHypothesis => rw [mapM_cons, mapM_cons, head.text_eq, inductionHypothesis]
  rw [text, words, text]

theorem text_isOk_iff : (∃ written, program.text = .ok written) ↔ ∀ instr ∈ program, instr.IsNamed := by
  simp_rw [← Instr.text_isOk_iff, ← mapM_isOk_iff, text_eq_ok_iff]
  exact ⟨fun ⟨_, words, mapped, _⟩ => ⟨words, mapped⟩, fun ⟨words, mapped⟩ => ⟨_, words, mapped, rfl⟩⟩

/-- A program has no text exactly if it reads a register without a name. Programs that have a text have the same one
exactly if they are equally long and agree word by word in opcode, register and constant, the constant in single
precision. Then they end alike at every point. -/
theorem text_identifies :
    (∀ program : Program, (∃ cause, program.text = .error cause) ↔
        ∃ instr ∈ program, instr.op = .var ∧ instr.index ≠ 0 ∧ instr.index ≠ 1) ∧
      ∀ first second : Program, (∀ instr ∈ first, instr.IsNamed) → (∀ instr ∈ second, instr.IsNamed) →
        (first.text = second.text ↔ List.Forall₂ Instr.SameMeaning first second) ∧
          (first.text = second.text → ∀ registers, first.evaluate registers = second.evaluate registers) := by
  refine ⟨fun program => ?_, fun first second named named' => ?_⟩
  · have failed : (∃ cause, program.text = .error cause) ↔ ¬∃ written, program.text = .ok written := by
      cases program.text <;> simp
    rw [failed, text_isOk_iff]
    simp [Instr.IsNamed]
  · obtain ⟨written, text⟩ := text_isOk_iff.mpr named
    have identifies : first.text = second.text → List.Forall₂ Instr.SameMeaning first second :=
      fun same => sameMeaning_of_text text (same ▸ text)
    exact ⟨⟨identifies, text_congr⟩, fun same => evaluate_congr (identifies same)⟩

/-- A negative constant stands in front of a subtraction. One program holds it in double precision and the other in
single precision. They differ also in numbers that their subtractions do not read. -/
theorem text_identifies_of_rounded_constant :
    let first : Program := [{ op := .const, value := -0.1 }, { op := .var, index := 1 }, Instr.binary .sub]
    let second : Program :=
      [Instr.const (-0.1), { op := .var, index := 1 }, { op := .binary .sub, value := 2, index := 7 }]
    (∀ instr ∈ first, instr.IsNamed) ∧ (∀ instr ∈ second, instr.IsNamed) ∧ first.text = .ok "-0.1 y -" ∧
      first.text = second.text ∧ List.Forall₂ Instr.SameMeaning first second ∧
        ∀ registers, first.evaluate registers = second.evaluate registers := by
  intro first second
  have named : ∀ instr ∈ first, instr.IsNamed := by decide
  have named' : ∀ instr ∈ second, instr.IsNamed := by decide
  have same : first.text = second.text := by decide +kernel
  obtain ⟨identifies, evaluates⟩ := text_identifies.2 first second named named'
  exact ⟨named, named', by decide +kernel, same, identifies.mp same, evaluates same⟩

end Program

end EvoRaster
