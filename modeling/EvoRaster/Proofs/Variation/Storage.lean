import EvoRaster.Proofs.Outcome.Ensures
import EvoRaster.Variation.Mutation

/-!
Contract: programs that are copied and mutated in the place where they are stored.

Owns:
- `Storage`, programs in numbered places beside the source of their mutations;
- `Storage.copy` and `Storage.mutate`, which change one place;
- `mutate_ensures` and `mutateTimes_ensures`: a mutation in place does what a mutation answers, and one that fails
  leaves the program as it was;
- `Storage.Keeps`, by which the places in use stay as they are, and its rules.

A mutation answers a new program and cannot touch the old one. That nothing depends on this is proved here, where a
program is overwritten and a computation that fails leaves what it has written.
-/

namespace EvoRaster

/-- Programs in numbered places, and the source of their mutations. The places from `used` on are free. -/
structure Storage where
  programs : Nat → Program
  used : Nat
  source : Source

/-- A step in storage. It may fail, and leaves the storage in either case. -/
abbrev StorageStep (ε : Type) := ExceptT ε (StateM Storage)

namespace Storage

variable {ε α : Type}

def write (storage : Storage) (place : Nat) (program : Program) : Storage :=
  { storage with programs := fun other => if other = place then program else storage.programs other }

/-- A computation that draws words and does not see the programs. -/
def drawing (draws : ExceptT ε (StateM Source) α) : StorageStep ε α := fun storage =>
  ((draws storage.source).1, { storage with source := (draws storage.source).2 })

/-- Copies a program to the first free place, and answers that place. -/
def copy (place : Nat) : StorageStep ε Nat := do
  let storage ← get
  set { storage.write storage.used (storage.programs place) with used := storage.used + 1 }
  return storage.used

/-- Mutates the program in a place. The program is not written before all draws are made. -/
def mutate (place : Nat) (registers : Int) : StorageStep VariationError Unit := do
  let program := (← get).programs place
  if program.isEmpty then throw .emptyProgram
  if registers < 1 then throw (.noRegisters registers)
  let position ← drawing (liftM (Draw.below program.length) : Variation (Fin program.length))
  let replacement ← drawing (Rule.replace program[position] registers)
  modify fun storage => storage.write place ((storage.programs place).splice position replacement)

def mutateTimes (place : Nat) (registers : Int) : Nat → StorageStep VariationError Unit
  | 0 => return
  | times + 1 => do
      mutate place registers
      mutateTimes place registers times

/-! ## Places -/

section Places

variable (storage : Storage) (place : Nat) (program : Program)

@[simp] theorem write_source : (storage.write place program).source = storage.source := rfl

@[simp] theorem write_here : (storage.write place program).programs place = program := if_pos rfl

theorem write_elsewhere {other : Nat} (different : other ≠ place) :
    (storage.write place program).programs other = storage.programs other := if_neg different

end Places

/-- The places that were in use are in use still, and hold the programs that they held. -/
structure Keeps (storage after : Storage) : Prop where
  used : storage.used ≤ after.used
  programs : ∀ place < storage.used, after.programs place = storage.programs place

theorem Keeps.refl (storage : Storage) : storage.Keeps storage := ⟨Nat.le_refl _, fun _ _ => rfl⟩

theorem Keeps.trans {storage between after : Storage} (first : storage.Keeps between)
    (second : between.Keeps after) : storage.Keeps after where
  used := Nat.le_trans first.used second.used
  programs := fun place inside => by
    rw [second.programs place (Nat.lt_of_lt_of_le inside first.used), first.programs place inside]

/-- No other place than this one was changed. -/
structure ChangesOnly (place : Nat) (storage after : Storage) : Prop where
  used : after.used = storage.used
  programs : ∀ other, other ≠ place → after.programs other = storage.programs other

theorem ChangesOnly.trans {place : Nat} {storage between after : Storage}
    (first : ChangesOnly place storage between) (second : ChangesOnly place between after) :
    ChangesOnly place storage after where
  used := second.used.trans first.used
  programs := fun other different => (second.programs other different).trans (first.programs other different)

/-- What happens in a free place does not matter to the places in use. -/
theorem Keeps.changesOnly {place : Nat} {storage between after : Storage} (keeps : storage.Keeps between)
    (free : storage.used ≤ place) (changes : ChangesOnly place between after) : storage.Keeps after where
  used := changes.used ▸ keeps.used
  programs := fun other inside => by
    rw [changes.programs other (by omega), keeps.programs other inside]

/-! ## Steps -/

section Steps

variable {storage : Storage} {place : Nat} {registers : Int}

private theorem drawing_ensures {draws : ExceptT ε (StateM Source) α} {done : α → Storage → Prop}
    {failed : ε → Storage → Prop}
    (ensured : Ensures draws storage.source (fun value source => done value { storage with source })
      fun cause source => failed cause { storage with source }) :
    Ensures (drawing draws) storage done failed := by
  have taken : drawing draws storage =
      ((draws storage.source).1, { storage with source := (draws storage.source).2 }) := rfl
  unfold Ensures at ensured ⊢
  rw [taken]
  split at ensured
  · rename_i value source ended
    rw [ended]
    exact ensured
  · rename_i cause source ended
    rw [ended]
    exact ensured

/-- A copy goes to a free place. -/
theorem copy_ensures (storage : Storage) (place : Nat) {failed : ε → Storage → Prop} :
    Ensures (copy place) storage
      (fun new after => new = storage.used ∧ after.used = storage.used + 1 ∧ after.source = storage.source ∧
        after.programs new = storage.programs place ∧ storage.Keeps after) failed := by
  refine Ensures.of_get_bind (Ensures.bind (Ensures.of_set (Ensures.of_pure ?_)))
  refine ⟨rfl, rfl, rfl, storage.write_here storage.used _, Nat.le_succ _, fun other inside => ?_⟩
  exact storage.write_elsewhere storage.used _ (Nat.ne_of_lt inside)

/-- A mutation in place writes what the mutation of the program answers. If that fails, nothing is written. -/
theorem mutate_ensures (storage : Storage) (place : Nat) (registers : Int) :
    Ensures (mutate place registers) storage
      (fun _ after =>
        (storage.programs place).mutate registers storage.source = (.ok (after.programs place), after.source) ∧
          ChangesOnly place storage after)
      fun cause after =>
        (storage.programs place).mutate registers storage.source = (.error cause, after.source) ∧
          after.programs = storage.programs ∧ after.used = storage.used := by
  unfold mutate Program.mutate
  apply Ensures.of_get_bind
  by_cases empty : (storage.programs place).isEmpty
  · simp only [if_pos empty]
    exact Ensures.of_throw ⟨rfl, rfl, rfl⟩
  by_cases few : registers < 1
  · simp only [if_neg empty, if_pos few]
    exact Ensures.of_throw ⟨rfl, rfl, rfl⟩
  simp only [if_neg empty, if_neg few]
  refine Ensures.bind (drawing_ensures (Ensures.intro ?_ ?_))
  · intro position between chosen
    refine Ensures.bind (drawing_ensures (Ensures.intro ?_ ?_))
    · intro replacement source replaced
      refine Ensures.of_modify ⟨?_, rfl, fun other different => write_elsewhere _ place _ different⟩
      rw [write_here]
      exact (bind_of_ok chosen).trans (bind_of_ok replaced)
    · intro cause source failing
      exact ⟨(bind_of_ok chosen).trans (bind_of_error failing), rfl, rfl⟩
  · intro cause source failing
    exact ⟨bind_of_error failing, rfl, rfl⟩

/-- Mutations in place do what mutations one after the other answer. Those before a failure stay written. -/
theorem mutateTimes_ensures (times : Nat) (storage : Storage) (place : Nat) (registers : Int) :
    Ensures (mutateTimes place registers times) storage
      (fun _ after =>
        (storage.programs place).mutateTimes registers times storage.source =
            (.ok (after.programs place), after.source) ∧
          ChangesOnly place storage after)
      fun cause after =>
        (storage.programs place).mutateTimes registers times storage.source = (.error cause, after.source) ∧
          ChangesOnly place storage after := by
  induction times generalizing storage with
  | zero => exact Ensures.of_pure ⟨rfl, rfl, fun _ _ => rfl⟩
  | succ times inductionHypothesis =>
      unfold mutateTimes Program.mutateTimes
      refine Ensures.bind ((mutate_ensures storage place registers).mono ?_ ?_)
      · intro _ between ended
        rcases ended with ⟨mutated, changes⟩
        refine (inductionHypothesis between).mono ?_ ?_
        · intro _ after ended
          exact ⟨(bind_of_ok mutated).trans ended.1, changes.trans ended.2⟩
        · intro cause after ended
          exact ⟨(bind_of_ok mutated).trans ended.1, changes.trans ended.2⟩
      · intro cause after ended
        rcases ended with ⟨failing, programs, used⟩
        exact ⟨bind_of_error failing, used, fun other _ => congrFun programs other⟩

end Steps

end Storage

end EvoRaster
