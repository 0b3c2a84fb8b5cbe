import EvoRaster.Proofs.Folding.Contraction

/-!
Contract: the normal form that folding reaches.

Owns:
- `Program.IsFolded`, programs in which no operator stands behind constants that it could take;
- `extend_replays` and `foldlM_replays`, by which the folded words do to any prefix what the words did that they
  were folded from;
- `foldlM_invariant`, by which a program keeps what each of its words keeps;
- `fold_append`, by which a program may be cut anywhere and folded in parts;
- `fold_of_parts`, which adds when folding is refused, and that a folded program is normal and stays as it is.

The second part is folded without a look at the constants that the first part leaves behind. This costs nothing,
because a contraction does the same behind every prefix.
-/

namespace EvoRaster

/-- No operator stands behind constants that it could take. -/
def Program.IsFolded (program : Program) : Prop :=
  ∀ redex words, redex <:+: program → ¬Contracts redex words

theorem Contracts.constants {redex words : List Instr} (contracts : Contracts redex words) :
    ∀ word ∈ words, word.isConst = true := by
  cases contracts <;> simp [Instr.literal, Instr.const, Instr.isConst]

namespace FoldedPrefix

/-! ## Folding behind any prefix -/

/-- What a contraction leaves extends any prefix as its operator did. -/
private theorem foldlM_contracts {redex words : List Instr} (contracts : Contracts redex words)
    (start : FoldedPrefix) : words.foldlM extend start = redex.foldlM extend start := by
  rw [foldlM_redex contracts, foldlM_constants contracts.constants]

theorem notDrop_of_extend {folded longer : FoldedPrefix} {instr : Instr}
    (extended : folded.extend instr = .ok longer) : instr.op ≠ .drop := by
  intro isDrop
  rw [extend_drop isDrop] at extended
  cases extended

/-- A prefix into which another word was folded does what the two do one after the other. -/
theorem extend_replays {folded longer : FoldedPrefix} {instr : Instr}
    (extended : folded.extend instr = .ok longer) (start : FoldedPrefix) :
    (List.reverse longer).foldlM extend start = (List.reverse folded ++ [instr]).foldlM extend start := by
  obtain ⟨longer', extended', ⟨-, rfl⟩ | ⟨older, operands, words, contracts, rfl, rfl⟩⟩ :=
    folded.extend_cases (notDrop_of_extend extended)
  · obtain rfl := Except.ok.inj (extended.symm.trans extended')
    rw [List.reverse_cons]
  · obtain rfl := Except.ok.inj (extended.symm.trans extended')
    rw [List.reverse_append, List.reverse_append, List.reverse_reverse, List.reverse_reverse,
      List.append_assoc, List.foldlM_append, List.foldlM_append]
    congr 1
    funext between
    exact foldlM_contracts contracts between

theorem foldlM_replays {program : Program} {folded final : FoldedPrefix}
    (ended : program.foldlM extend folded = .ok final) (start : FoldedPrefix) :
    (List.reverse final).foldlM extend start = (List.reverse folded ++ program).foldlM extend start := by
  induction program generalizing folded with
  | nil =>
      cases ended
      rw [List.append_nil]
  | cons instr rest inductionHypothesis =>
      rw [List.foldlM_cons] at ended
      cases extended : folded.extend instr with
      | error cause => rw [extended] at ended; cases ended
      | ok longer =>
          rw [extended, ok_bind] at ended
          rw [inductionHypothesis ended, List.foldlM_append, extend_replays extended, ← List.foldlM_append,
            List.append_assoc, List.singleton_append]

/-- What every word keeps, a program keeps. -/
theorem foldlM_invariant (invariant : FoldedPrefix → Prop)
    (kept : ∀ {folded longer : FoldedPrefix} {instr : Instr},
      invariant folded → folded.extend instr = .ok longer → invariant longer)
    {program : Program} {folded final : FoldedPrefix} (start : invariant folded)
    (ended : program.foldlM extend folded = .ok final) : invariant final := by
  induction program generalizing folded with
  | nil =>
      cases ended
      exact start
  | cons instr rest inductionHypothesis =>
      rw [List.foldlM_cons] at ended
      cases extended : folded.extend instr with
      | error cause => rw [extended] at ended; cases ended
      | ok longer =>
          rw [extended, ok_bind] at ended
          exact inductionHypothesis (kept start extended) ended

/-! ## Prefixes in normal form -/

/-- Every word was kept where it stands. -/
inductive Settled : FoldedPrefix → Prop where
  | nil : Settled []
  | cons {older : FoldedPrefix} {newest : Instr} (kept : older.takes newest = false) (settled : Settled older) :
      Settled (newest :: older)

theorem Settled.of_append {newer older : FoldedPrefix} (settled : Settled (newer ++ older)) :
    Settled older := by
  induction newer with
  | nil => exact settled
  | cons newest newer inductionHypothesis =>
      cases settled with
      | cons _ settled => exact inductionHypothesis settled

/-- Constants take nothing. -/
private theorem Settled.append_constants {words older : FoldedPrefix} (settled : Settled older)
    (constants : ∀ word ∈ words, word.isConst = true) : Settled (words ++ older) := by
  induction words with
  | nil => exact settled
  | cons word words inductionHypothesis =>
      rw [List.forall_mem_cons] at constants
      exact .cons (takes_const constants.1 _) (inductionHypothesis constants.2)

/-- The operator of a contraction takes its constants. -/
private theorem not_settled {redex words : List Instr} (contracts : Contracts redex words) (older : FoldedPrefix) :
    ¬Settled (redex.reverse ++ older) := by
  intro settled
  cases contracts with
  | binary isLeft isRight isOperator =>
      cases settled with
      | cons kept _ => simp [takes, isOperator, endsInTwoConstants, isLeft, isRight] at kept
  | unary isOperand isOperator =>
      cases settled with
      | cons kept _ => simp [takes, isOperator, endsInConstant, isOperand] at kept
  | dup isOperand isDup =>
      cases settled with
      | cons kept _ => simp [takes, isDup, endsInConstant, isOperand] at kept

theorem Settled.isFolded {folded : FoldedPrefix} (settled : Settled folded) :
    Program.IsFolded (List.reverse folded) := by
  rintro redex words ⟨before, after, split⟩ contracts
  have reversed : folded = after.reverse ++ (redex.reverse ++ before.reverse) := by
    rw [← List.reverse_reverse folded, ← split]
    simp
  rw [reversed] at settled
  exact not_settled contracts _ settled.of_append

private theorem extend_settled {folded longer : FoldedPrefix} {instr : Instr} (settled : Settled folded)
    (extended : folded.extend instr = .ok longer) : Settled longer := by
  obtain ⟨longer', extended', ⟨kept, rfl⟩ | ⟨older, operands, words, contracts, rfl, rfl⟩⟩ :=
    folded.extend_cases (notDrop_of_extend extended)
  · obtain rfl := Except.ok.inj (extended.symm.trans extended')
    exact .cons kept settled
  · obtain rfl := Except.ok.inj (extended.symm.trans extended')
    exact settled.of_append.append_constants fun word member =>
      contracts.constants word (List.mem_reverse.mp member)

private theorem foldlM_settled {program : Program} {folded final : FoldedPrefix} (settled : Settled folded)
    (ended : program.foldlM extend folded = .ok final) : Settled final :=
  foldlM_invariant Settled extend_settled settled ended

/-! ## Refusals -/

/-- Folding ends unless there is a `drop`, which is refused wherever it stands. -/
theorem foldlM_ends (program : Program) (folded : FoldedPrefix) :
    ((∀ instr ∈ program, instr.op ≠ .drop) → ∃ final, program.foldlM extend folded = .ok final) ∧
      ((∃ instr ∈ program, instr.op = .drop) → program.foldlM extend folded = .error .dropRefused) := by
  induction program generalizing folded with
  | nil => exact ⟨fun _ => ⟨folded, rfl⟩, by simp⟩
  | cons instr rest inductionHypothesis =>
      rw [List.forall_mem_cons, List.foldlM_cons]
      by_cases isDrop : instr.op = .drop
      · rw [extend_drop isDrop, error_bind]
        exact ⟨fun noDrop => absurd isDrop noDrop.1, fun _ => rfl⟩
      · obtain ⟨longer, extended, -⟩ := folded.extend_cases isDrop
        rw [extended, ok_bind]
        refine ⟨fun noDrop => (inductionHypothesis longer).1 noDrop.2, ?_⟩
        rintro ⟨other, member, otherDrop⟩
        obtain rfl | later := List.mem_cons.mp member
        · exact absurd otherDrop isDrop
        · exact (inductionHypothesis longer).2 ⟨other, later, otherDrop⟩

end FoldedPrefix

/-! ## Whole programs -/

namespace Program

variable {program folded : Program}

theorem fold_of_foldlM {final : FoldedPrefix} (ended : program.foldlM FoldedPrefix.extend [] = .ok final) :
    program.fold = .ok final.reverse := by
  rw [fold, ended]
  rfl

theorem foldlM_of_fold (folds : program.fold = .ok folded) :
    program.foldlM FoldedPrefix.extend [] = .ok folded.reverse := by
  rw [fold] at folds
  cases ended : program.foldlM FoldedPrefix.extend [] with
  | error cause => rw [ended] at folds; cases folds
  | ok final =>
      rw [ended] at folds
      cases folds
      rw [List.reverse_reverse]

theorem fold_of_noDrop (noDrop : ∀ instr ∈ program, instr.op ≠ .drop) :
    ∃ folded, program.fold = .ok folded := by
  obtain ⟨final, ended⟩ := (FoldedPrefix.foldlM_ends program []).1 noDrop
  exact ⟨_, fold_of_foldlM ended⟩

theorem fold_of_drop (drops : ∃ instr ∈ program, instr.op = .drop) :
    program.fold = .error .dropRefused := by
  rw [fold, (FoldedPrefix.foldlM_ends program []).2 drops]
  rfl

theorem noDrop_of_fold (folds : program.fold = .ok folded) : ∀ instr ∈ program, instr.op ≠ .drop := by
  intro instr member isDrop
  rw [fold_of_drop ⟨instr, member, isDrop⟩] at folds
  cases folds

/-- Folding in parts, wherever the program is cut. -/
theorem fold_append (first second : Program) :
    (first ++ second).fold =
      (do
        let first ← first.fold
        let second ← second.fold
        (first ++ second).fold) := by
  by_cases drops : ∃ instr ∈ first, instr.op = .drop
  · have whole : ∃ instr ∈ first ++ second, instr.op = .drop := by
      obtain ⟨instr, member, isDrop⟩ := drops
      exact ⟨instr, List.mem_append_left _ member, isDrop⟩
    rw [fold_of_drop whole, fold_of_drop drops, error_bind]
  obtain ⟨first', one⟩ := fold_of_noDrop (by simpa using drops)
  by_cases drops' : ∃ instr ∈ second, instr.op = .drop
  · have whole : ∃ instr ∈ first ++ second, instr.op = .drop := by
      obtain ⟨instr, member, isDrop⟩ := drops'
      exact ⟨instr, List.mem_append_right _ member, isDrop⟩
    rw [fold_of_drop whole, one, ok_bind, fold_of_drop drops', error_bind]
  obtain ⟨second', two⟩ := fold_of_noDrop (by simpa using drops')
  have before := foldlM_of_fold one
  have again := FoldedPrefix.foldlM_replays before []
  have after := FoldedPrefix.foldlM_replays (foldlM_of_fold two) first'.reverse
  rw [List.reverse_reverse, List.reverse_nil, List.nil_append] at again after
  rw [one, two, ok_bind, ok_bind, fold, fold, List.foldlM_append, List.foldlM_append, again, before, ok_bind,
    ok_bind, after]

/-- A folded program is in normal form. -/
theorem isFolded_of_fold (folds : program.fold = .ok folded) : folded.IsFolded := by
  have settled := FoldedPrefix.foldlM_settled .nil (foldlM_of_fold folds)
  rw [← List.reverse_reverse folded]
  exact settled.isFolded

/-- Folding a folded program changes nothing. -/
theorem fold_of_folded (folds : program.fold = .ok folded) : folded.fold = .ok folded := by
  have parts := fold_append program []
  rw [List.append_nil, folds, ok_bind, show fold [] = .ok [] from rfl, ok_bind, List.append_nil] at parts
  exact parts.symm

/-- A program without `drop` may be cut anywhere: its parts, folded one by one, put together and folded again,
make the same words as the whole. With a `drop` both ways are refused. A folded program is in normal form, and
folding leaves it as it is. -/
theorem fold_of_parts (first second : Program) :
    ((∀ instr ∈ first ++ second, instr.op ≠ .drop) →
      ∃ first' second' folded, first.fold = .ok first' ∧ second.fold = .ok second' ∧
        (first ++ second).fold = .ok folded ∧ (first' ++ second').fold = .ok folded) ∧
      ((∃ instr ∈ first ++ second, instr.op = .drop) →
        (first ++ second).fold = .error .dropRefused ∧
          (do
            let first ← first.fold
            let second ← second.fold
            (first ++ second).fold) = .error .dropRefused) ∧
      ∀ folded, first.fold = .ok folded → folded.fold = .ok folded ∧ folded.IsFolded := by
  have whole := fold_append first second
  refine ⟨fun noDrop => ?_, fun drops => ?_, fun folded folds => ⟨fold_of_folded folds, isFolded_of_fold folds⟩⟩
  · rw [List.forall_mem_append] at noDrop
    obtain ⟨first', one⟩ := fold_of_noDrop noDrop.1
    obtain ⟨second', two⟩ := fold_of_noDrop noDrop.2
    obtain ⟨folded, folds⟩ := fold_of_noDrop (List.forall_mem_append.mpr noDrop)
    rw [one, two, ok_bind, ok_bind] at whole
    exact ⟨first', second', folded, one, two, folds, whole ▸ folds⟩
  · exact ⟨fold_of_drop drops, whole ▸ fold_of_drop drops⟩

/-- The cut separates a computed constant from the words that copy it and multiply it with the copy. -/
theorem fold_of_parts_at_dup :
    let first : Program := [{ op := .const, value := 0.1 }, Instr.unary .atan]
    let second : Program := [{ op := .dup }, Instr.binary .mul]
    let dropping : Program := [{ op := .drop }]
    (∀ instr ∈ first ++ second, instr.op ≠ .drop) ∧
      (∃ first' second' folded, first.fold = .ok first' ∧ second.fold = .ok second' ∧
        (first ++ second).fold = .ok folded ∧ (first' ++ second').fold = .ok folded) ∧
      (∃ instr ∈ first ++ dropping, instr.op = .drop) ∧
      (first ++ dropping).fold = .error .dropRefused ∧
      ∃ folded, first.fold = .ok folded ∧ folded.fold = .ok folded := by
  intro first second dropping
  have noDrop : ∀ instr ∈ first ++ second, instr.op ≠ .drop := by
    simp [first, second, Instr.unary, Instr.binary]
  have drops : ∃ instr ∈ first ++ dropping, instr.op = .drop := by simp [dropping]
  obtain ⟨folds, -, idempotent⟩ := fold_of_parts first second
  obtain ⟨-, refused, -⟩ := fold_of_parts first dropping
  exact ⟨noDrop, folds noDrop, drops, (refused drops).1, _, rfl, (idempotent _ rfl).1⟩

end Program

end EvoRaster
