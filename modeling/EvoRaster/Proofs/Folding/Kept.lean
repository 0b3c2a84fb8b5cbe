import EvoRaster.Machine.Code
import EvoRaster.Proofs.Folding.Completeness
import EvoRaster.Proofs.Text.Postfix

/-!
Contract: the words that folding keeps, for programs of any shape.

Owns:
- `FoldedPrefix.extend_error_iff`, the only refusal: no fold looks for a constant where there is none;
- `FoldedPrefix.foldlM_words`, by which constants come and go while other words are kept or dropped where they stand;
- `Code.ofProgram_inputs_error_iff` and `Program.text_inputs_error_iff`, by which only words that read inputs cannot be
  compiled or written;
- `Program.fold_keeps_words`, for whole programs.

A program need not find its operands here. An operator that takes constants reads no input, so every word that reads one
stays in its place among the others.
-/

namespace EvoRaster

/-! ## Single words -/

theorem Contracts.length_le {redex words : List Instr} (contracts : Contracts redex words) :
    words.length ≤ redex.length := by
  cases contracts <;> simp

namespace FoldedPrefix

variable {folded longer : FoldedPrefix} {instr : Instr}

/-- Every fold finds the constants that it takes, whatever the prefix is. -/
theorem extend_error_iff {cause : FoldError} :
    folded.extend instr = .error cause ↔ cause = .dropRefused ∧ instr.op = .drop := by
  by_cases isDrop : instr.op = .drop
  · simp [extend_drop isDrop, isDrop, eq_comm]
  · obtain ⟨longer, extended, -⟩ := folded.extend_cases isDrop
    simp [extended, isDrop]

private theorem length_extend (extended : folded.extend instr = .ok longer) : longer.length ≤ folded.length + 1 := by
  obtain ⟨longer', extended', ⟨-, rfl⟩ | ⟨older, operands, words, contracts, rfl, rfl⟩⟩ :=
    folded.extend_cases (notDrop_of_extend extended)
  · obtain rfl := Except.ok.inj (extended.symm.trans extended')
    exact le_rfl
  · obtain rfl := Except.ok.inj (extended.symm.trans extended')
    have shorter := contracts.length_le
    simp only [List.length_append, List.length_reverse, List.length_singleton] at shorter ⊢
    omega

/-- A program adds some of its words to the words that are no constants, and all those that read inputs. -/
theorem foldlM_words {program : Program} {final : FoldedPrefix}
    (ended : program.foldlM extend folded = .ok final) :
    final.length ≤ folded.length + program.length ∧
      ∃ kept : Program, kept.Sublist program ∧ kept.inputs = program.inputs ∧
        Program.nonConstants (List.reverse final) = Program.nonConstants (List.reverse folded) ++ kept := by
  induction program generalizing folded with
  | nil =>
      cases ended
      exact ⟨le_rfl, [], .slnil, rfl, (List.append_nil _).symm⟩
  | cons instr rest inductionHypothesis =>
      rw [List.foldlM_cons] at ended
      cases extended : folded.extend instr with
      | error cause => rw [extended] at ended; cases ended
      | ok longer =>
          rw [extended, ok_bind] at ended
          obtain ⟨shorter, kept, sublist, inputs, words⟩ := inductionHypothesis ended
          have one := length_extend extended
          refine ⟨by rw [List.length_cons]; omega, ?_⟩
          rw [nonConstants_extend extended, List.append_assoc] at words
          by_cases stays : folded.takes instr = false ∧ instr.isConst = false
          · rw [if_pos stays] at words
            refine ⟨instr :: kept, sublist.cons_cons instr, ?_, words⟩
            rw [Program.inputs, Program.inputs, List.filter_cons, List.filter_cons, ← Program.inputs, inputs]
            rfl
          · rw [if_neg stays] at words
            have notVar : instr.op ≠ .var := by
              intro isVar
              simp [takes, isVar, Instr.isConst] at stays
            refine ⟨kept, sublist.cons instr, ?_, words⟩
            rw [inputs, Program.inputs, Program.inputs, List.filter_cons_of_neg (by simpa using notVar)]

end FoldedPrefix

/-! ## Words that cannot be compiled or written -/

private theorem Slot.ofInstr_of_notVar {instr : Instr} (notVar : instr.op ≠ .var) (registers : Int) :
    ∃ slot, ofInstr registers instr = .ok slot := by
  rcases instr with ⟨op, value, index⟩
  cases op with
  | var => exact absurd rfl notVar
  | const | binary | unary | drop | dup => exact ⟨_, rfl⟩

theorem Code.ofProgram_inputs_error_iff {registers : Int} {program : Program} {cause : CompileError} :
    ofProgram registers program.inputs = .error cause ↔ ofProgram registers program = .error cause :=
  mapM_filter_error_iff fun _ notInput => Slot.ofInstr_of_notVar (by simpa using notInput) registers

namespace Program

private theorem text_error_iff {program : Program} {cause : TextError} :
    program.text = .error cause ↔ program.mapM Instr.text = .error cause := by
  rw [text]
  cases program.mapM Instr.text with
  | error cause' => rw [error_bind, Except.error.injEq, Except.error.injEq]
  | ok words => simp [pure, Except.pure]

theorem text_inputs_error_iff {program : Program} {cause : TextError} :
    program.inputs.text = .error cause ↔ program.text = .error cause := by
  rw [text_error_iff, text_error_iff]
  exact mapM_filter_error_iff fun _ notInput =>
    Instr.text_isOk_iff.mpr fun isVar => absurd isVar (by simpa using notInput)

/-! ## Whole programs -/

theorem fold_error_iff {program : Program} {cause : FoldError} :
    program.fold = .error cause ↔ cause = .dropRefused ∧ ∃ instr ∈ program, instr.op = .drop := by
  by_cases drops : ∃ instr ∈ program, instr.op = .drop
  · rw [fold_of_drop drops]
    exact ⟨fun refused => ⟨(Except.error.inj refused).symm, drops⟩, fun known => known.1 ▸ rfl⟩
  · obtain ⟨folded, folds⟩ := fold_of_noDrop (by simpa using drops)
    simp [folds, drops]

theorem fold_words {program folded : Program} (folds : program.fold = .ok folded) :
    folded.length ≤ program.length ∧ folded.nonConstants.Sublist program ∧ folded.inputs = program.inputs := by
  obtain ⟨shorter, kept, sublist, inputs, words⟩ := FoldedPrefix.foldlM_words (foldlM_of_fold folds)
  rw [List.reverse_reverse, List.reverse_nil] at words
  obtain rfl : folded.nonConstants = kept := words
  rw [inputs_nonConstants] at inputs
  exact ⟨by simpa using shorter, sublist, inputs⟩

/-- Folding is refused for a `drop` and for nothing else: no prefix is ever searched for a constant that is not there.
A folded program is not longer than the program. Its words other than constants are words of the program in their
order, and those that read inputs are all there. So the two cannot be compiled, or cannot be written, for the same
reason. -/
theorem fold_keeps_words (program : Program) :
    (∀ cause, program.fold = .error cause ↔ cause = .dropRefused ∧ ∃ instr ∈ program, instr.op = .drop) ∧
      (∀ (folded : FoldedPrefix) (instr : Instr), folded.extend instr ≠ .error .noConstantOnTop) ∧
      ∀ folded, program.fold = .ok folded →
        folded.length ≤ program.length ∧ folded.nonConstants.Sublist program ∧ folded.inputs = program.inputs ∧
          (∀ registers cause,
            Code.ofProgram registers folded = .error cause ↔ Code.ofProgram registers program = .error cause) ∧
          ∀ cause, folded.text = .error cause ↔ program.text = .error cause := by
  refine ⟨fun _ => fold_error_iff, fun folded instr missing => ?_, fun folded folds => ?_⟩
  · exact absurd (FoldedPrefix.extend_error_iff.mp missing).1 nofun
  · obtain ⟨shorter, sublist, inputs⟩ := fold_words folds
    refine ⟨shorter, sublist, inputs, fun registers cause => ?_, fun cause => ?_⟩
    · rw [← Code.ofProgram_inputs_error_iff, inputs, Code.ofProgram_inputs_error_iff]
    · rw [← text_inputs_error_iff, inputs, text_inputs_error_iff]

/-- The input has no register and no name. It stays behind the folded constant, and the sum that misses an operand stays
too. -/
theorem fold_keeps_words_of_unnamed_input :
    let unnamed : Instr := { op := .var, index := 5 }
    let operators : Program := [Instr.binary .add, Instr.binary .add]
    let program : Program := { op := .const, value := 0.1 } :: Instr.unary .atan :: unnamed :: operators
    let folded : Program := Instr.literal (UnaryOp.apply .atan (Numeric.narrow 0.1)) :: unnamed :: operators
    program.fold = .ok folded ∧ folded.length ≤ program.length ∧ folded.nonConstants.Sublist program ∧
      folded.inputs = program.inputs ∧ Code.ofProgram 2 folded = .error (.noRegister 5 2) ∧
      folded.text = .error (.unnamedRegister 5) := by
  intro unnamed operators program folded
  have folds : program.fold = .ok folded := rfl
  obtain ⟨-, -, keeps⟩ := fold_keeps_words program
  obtain ⟨shorter, sublist, inputs, compiles, written⟩ := keeps folded folds
  exact ⟨folds, shorter, sublist, inputs, (compiles 2 _).mpr rfl, (written _).mpr rfl⟩

end Program

end EvoRaster
