import EvoRaster.Proofs.Search.Breeding
import EvoRaster.Proofs.Variation.Storage

/-!
Contract: breeding where programs are copied first and then mutated in their places.

Owns:
- `Stored`, an individual that names the place of its program;
- `Storage.offspring`, which copies each parent for its slot, mutates the copy where it stands, and copies the elites;
- `Storage.Holds` and `Storage.Fresh`, by which individuals in storage stand for a population, and have places that
  nobody else has;
- `Storage.ofPopulation`, a storage for any population;
- `Storage.offspring_ensures`: this is the breeding of `Search.offspring`, and whether it succeeds or not, every
  program that was stored before is as it was.
-/

namespace EvoRaster

/-- An individual whose program is stored in a place. -/
structure Stored where
  place : Nat
  error : Option Float := none

def Stored.individual (storage : Storage) (stored : Stored) : Individual :=
  { program := storage.programs stored.place, error := stored.error }

namespace Storage

/-- The child of a slot: a copy of the parent whose turn it is, mutated in its place. -/
def born (config : Config) (ranked : List Stored) (slot : Nat) : StorageStep SearchError Stored :=
  match ranked[slot % config.parents]? with
  | none => throw (.population .noIndividual)
  | some parent => do
      let place ← copy parent.place
      (mutateTimes place Config.registers config.mutationsPerChild).adapt SearchError.variation
      return { place }

def children (config : Config) (ranked : List Stored) : List Nat → StorageStep SearchError (List Stored)
  | [] => return []
  | slot :: slots => do
      let child ← born config ranked slot
      let rest ← children config ranked slots
      return child :: rest

/-- Copies of the programs of some individuals, to be evaluated again. -/
def copies : List Stored → StorageStep SearchError (List Stored)
  | [] => return []
  | stored :: rest => do
      let place ← copy stored.place
      let others ← copies rest
      return { place } :: others

def offspring (config : Config) (ranked : List Stored) : StorageStep SearchError (List Stored) := do
  let children ← children config ranked (List.range config.populationSize)
  let kept ← copies (ranked.take config.elites)
  return kept ++ children.drop kept.length

/-! ## Individuals in storage -/

/-- The programs are in places in use, and together with the errors they are this population. -/
structure Holds (storage : Storage) (stored : List Stored) (population : Population) : Prop where
  inUse : ∀ one ∈ stored, one.place < storage.used
  individuals : stored.map (Stored.individual storage) = population

/-- The places were free before, and no two of them are the same. -/
structure Fresh (storage : Storage) (placed : List Stored) : Prop where
  free : ∀ new ∈ placed, storage.used ≤ new.place
  apart : placed.Pairwise fun first second => first.place ≠ second.place

section Holds

variable {storage between after : Storage} {stored stored' placed : List Stored}
  {population population' : Population}

theorem Keeps.holds (keeps : storage.Keeps after) (holds : storage.Holds stored population) :
    after.Holds stored population where
  inUse := fun one member => Nat.lt_of_lt_of_le (holds.inUse one member) keeps.used
  individuals := by
    rw [← holds.individuals]
    apply List.map_congr_left
    intro one member
    rw [Stored.individual, Stored.individual, keeps.programs _ (holds.inUse one member)]

theorem Holds.nil (storage : Storage) : storage.Holds [] [] := ⟨nofun, rfl⟩

theorem Holds.append (first : storage.Holds stored population) (second : storage.Holds stored' population') :
    storage.Holds (stored ++ stored') (population ++ population') where
  inUse := fun one member => (List.mem_append.mp member).elim (first.inUse one) (second.inUse one)
  individuals := by rw [List.map_append, first.individuals, second.individuals]

theorem Holds.cons {one : Stored} (inUse : one.place < storage.used) (rest : storage.Holds stored population) :
    storage.Holds (one :: stored) (one.individual storage :: population) where
  inUse := List.forall_mem_cons.mpr ⟨inUse, rest.inUse⟩
  individuals := by rw [List.map_cons, rest.individuals]

theorem Holds.take (holds : storage.Holds stored population) (count : Nat) :
    storage.Holds (stored.take count) (population.take count) where
  inUse := fun one member => holds.inUse one (List.mem_of_mem_take member)
  individuals := by rw [List.map_take, holds.individuals]

theorem Holds.drop (holds : storage.Holds stored population) (count : Nat) :
    storage.Holds (stored.drop count) (population.drop count) where
  inUse := fun one member => holds.inUse one (List.mem_of_mem_drop member)
  individuals := by rw [List.map_drop, holds.individuals]

theorem Holds.getElem? (holds : storage.Holds stored population) (position : Nat) :
    population[position]? = stored[position]?.map (Stored.individual storage) := by
  rw [← holds.individuals, List.getElem?_map]

theorem Holds.length (holds : storage.Holds stored population) : population.length = stored.length := by
  rw [← holds.individuals, List.length_map]

theorem Fresh.cons {new : Stored} (free : storage.used ≤ new.place) (before : new.place < between.used)
    (used : storage.used ≤ between.used) (rest : between.Fresh placed) : storage.Fresh (new :: placed) where
  free := List.forall_mem_cons.mpr ⟨free, fun one member => Nat.le_trans used (rest.free one member)⟩
  apart := List.pairwise_cons.mpr ⟨fun one member => by have := rest.free one member; omega, rest.apart⟩

/-- Later places beside earlier ones. -/
theorem Fresh.append {earlier : List Stored} (fresh : between.Fresh placed) (used : storage.used ≤ between.used)
    (rest : storage.Fresh earlier) (inUse : ∀ one ∈ earlier, one.place < between.used) :
    storage.Fresh (placed ++ earlier) where
  free := fun one member => (List.mem_append.mp member).elim
    (fun later => Nat.le_trans used (fresh.free one later)) (rest.free one)
  apart := List.pairwise_append.mpr ⟨fresh.apart, rest.apart, fun one later other member same => by
    have above := fresh.free one later
    have below := inUse other member
    omega⟩

theorem Fresh.drop (fresh : storage.Fresh placed) (count : Nat) : storage.Fresh (placed.drop count) where
  free := fun one member => fresh.free one (List.mem_of_mem_drop member)
  apart := fresh.apart.sublist (List.drop_sublist count placed)

end Holds

/-! ## A place for each individual -/

/-- The programs of a population in the order of its slots, and nothing else. -/
def ofPopulation (population : Population) (source : Source) : Storage where
  programs := fun place => (population[place]?.map Individual.program).getD []
  used := population.length
  source := source

/-- The individuals of a population, each with the place of its program. -/
def inSlots (population : Population) : List Stored :=
  population.mapIdx fun place individual => { place, error := individual.error }

/-- Every population can be stored. -/
theorem ofPopulation_holds (population : Population) (source : Source) :
    (ofPopulation population source).Holds (inSlots population) population where
  inUse := fun one member => by
    rcases List.mem_mapIdx.mp member with ⟨place, inside, rfl⟩
    exact inside
  individuals := by
    apply List.ext_getElem
    · rw [List.length_map, inSlots, List.length_mapIdx]
    · intro place _ inside
      simp [inSlots, Stored.individual, ofPopulation, inside]

/-! ## Breeding in places -/

section Breeding

variable {storage : Storage} {ranked : List Stored} {population : Population}

/-- The child of a slot has a place of its own. -/
private theorem born_ensures (config : Config) (slot : Nat) (holds : storage.Holds ranked population) :
    Ensures (born config ranked slot) storage
      (fun new after =>
        Search.born config population slot storage.source = (.ok (after.programs new.place), after.source) ∧
          storage.Keeps after ∧ storage.used ≤ new.place ∧ new.place < after.used ∧ new.error = none)
      fun cause after =>
        Search.born config population slot storage.source = (.error cause, after.source) ∧
          storage.Keeps after := by
  have turn := holds.getElem? (slot % config.parents)
  unfold born
  cases found : ranked[slot % config.parents]? with
  | none =>
      rw [found] at turn
      rw [Search.born_of_nobody turn]
      exact Ensures.of_throw ⟨rfl, Keeps.refl storage⟩
  | some parent =>
      rw [found] at turn
      rw [Search.born_of_turn turn]
      apply (copy_ensures storage parent.place).bind_of
      rintro _ copied ⟨rfl, used, source, program, keeps⟩
      have mutations := mutateTimes_ensures config.mutationsPerChild copied storage.used Config.registers
      rw [program, source] at mutations
      refine Ensures.bind (Ensures.adapt (mutations.mono ?_ ?_))
      · intro _ after ended
        rcases ended with ⟨mutated, changes⟩
        have last : storage.used < after.used := by
          rw [changes.used, used]
          exact Nat.lt_succ_self _
        exact Ensures.of_pure
          ⟨adapt_of_ok mutated, keeps.changesOnly (Nat.le_refl _) changes, Nat.le_refl _, last, rfl⟩
      · intro cause after ended
        rcases ended with ⟨failed, changes⟩
        exact ⟨adapt_of_error failed, keeps.changesOnly (Nat.le_refl _) changes⟩

theorem children_ensures (config : Config) (slots : List Nat) (holds : storage.Holds ranked population) :
    Ensures (children config ranked slots) storage
      (fun placed after => ∃ bred,
        Search.children config population slots storage.source = (.ok bred, after.source) ∧
          storage.Keeps after ∧ after.Holds placed bred ∧ storage.Fresh placed)
      fun cause after =>
        Search.children config population slots storage.source = (.error cause, after.source) ∧
          storage.Keeps after := by
  induction slots generalizing storage with
  | nil => exact Ensures.of_pure ⟨[], rfl, Keeps.refl storage, Holds.nil storage, nofun, .nil⟩
  | cons slot slots inductionHypothesis =>
      rw [Search.children_cons]
      refine Ensures.bind ((born_ensures config slot holds).mono ?_ ?_)
      · rintro new between ⟨born, keeps, free, inUse, unevaluated⟩
        refine Ensures.bind ((inductionHypothesis (keeps.holds holds)).mono ?_ ?_)
        · rintro placed after ⟨bred, rest, keeps', holds', fresh⟩
          refine Ensures.of_pure ⟨_, (bind_of_ok born).trans (bind_of_ok rest), keeps.trans keeps', ?_,
            fresh.cons free inUse keeps.used⟩
          have child : new.individual after = { program := between.programs new.place } := by
            rw [Stored.individual, keeps'.programs _ inUse, unevaluated]
          rw [← child]
          exact holds'.cons (Nat.lt_of_lt_of_le inUse keeps'.used)
        · rintro cause after ⟨failed, keeps'⟩
          exact ⟨(bind_of_ok born).trans (bind_of_error failed), keeps.trans keeps'⟩
      · rintro cause after ⟨failed, keeps⟩
        exact ⟨bind_of_error failed, keeps⟩

private theorem copies_ensures (holds : storage.Holds ranked population) {failed : SearchError → Storage → Prop} :
    Ensures (copies ranked) storage
      (fun placed after => after.source = storage.source ∧ storage.Keeps after ∧
        after.Holds placed (population.map fun individual => { program := individual.program }) ∧
        storage.Fresh placed) failed := by
  induction ranked generalizing storage population with
  | nil =>
      obtain rfl := holds.individuals
      exact Ensures.of_pure ⟨rfl, Keeps.refl storage, Holds.nil storage, nofun, .nil⟩
  | cons first rest inductionHypothesis =>
      obtain rfl := holds.individuals
      rw [List.map_cons, List.map_cons]
      have others : storage.Holds rest (rest.map (Stored.individual storage)) :=
        ⟨fun one member => holds.inUse one (List.mem_cons_of_mem _ member), rfl⟩
      apply (copy_ensures storage first.place).bind_of
      rintro _ copied ⟨rfl, used, source, program, keeps⟩
      have inUse : storage.used < copied.used := by
        rw [used]
        exact Nat.lt_succ_self _
      refine Ensures.bind ((inductionHypothesis (keeps.holds others)).mono ?_ fun _ _ failed => failed)
      rintro placed after ⟨source', keeps', holds', fresh⟩
      refine Ensures.of_pure ⟨source'.trans source, keeps.trans keeps', ?_,
        fresh.cons (Nat.le_refl _) inUse keeps.used⟩
      have elite : ({ place := storage.used } : Stored).individual after =
          { program := (first.individual storage).program } := by
        rw [Stored.individual, keeps'.programs _ inUse, program]
        rfl
      rw [← elite]
      exact holds'.cons (Nat.lt_of_lt_of_le inUse keeps'.used)

/-- Breeding in places is breeding. It leaves the programs that were stored before, also when it fails. -/
theorem offspring_ensures (config : Config) (holds : storage.Holds ranked population) :
    Ensures (offspring config ranked) storage
      (fun placed after => ∃ bred,
        Search.offspring config population storage.source = (.ok bred, after.source) ∧
          storage.Keeps after ∧ after.Holds placed bred ∧ storage.Fresh placed)
      fun cause after =>
        Search.offspring config population storage.source = (.error cause, after.source) ∧
          storage.Keeps after := by
  refine Ensures.bind ((children_ensures config (List.range config.populationSize) holds).mono ?_ ?_)
  · rintro children between ⟨bred, born, keeps, filled, fresh⟩
    have elites := (keeps.holds holds).take config.elites
    refine Ensures.bind ((copies_ensures elites).mono ?_ fun _ _ failed => failed)
    rintro kept after ⟨source, keeps', copied, fresh'⟩
    have counted : kept.length = (Search.elites config population).length := copied.length.symm
    have others := filled.drop kept.length
    refine Ensures.of_pure ⟨_, ?_, keeps.trans keeps', copied.append (keeps'.holds others),
      fresh'.append keeps.used (fresh.drop kept.length) others.inUse⟩
    rw [source, counted]
    exact bind_of_ok born
  · rintro cause after ⟨failed, keeps⟩
    exact ⟨bind_of_error failed, keeps⟩

variable {config : Config} {source : Source}

theorem offspring_of_ok {bred : Population} (holds : storage.Holds ranked population)
    (ended : Search.offspring config population storage.source = (.ok bred, source)) :
    ∃ placed later, offspring config ranked storage = (.ok placed, later) ∧ later.source = source ∧
      later.Holds placed bred ∧ storage.Fresh placed ∧ storage.Keeps later := by
  have ensured := offspring_ensures config holds
  rw [ended] at ensured
  rcases answered : offspring config ranked storage with ⟨cause | placed, later⟩
  · cases (ensured.of_error answered).1
  · obtain ⟨bred', same, keeps, placedHolds, fresh⟩ := ensured.of_ok answered
    cases same
    exact ⟨placed, later, rfl, rfl, placedHolds, fresh, keeps⟩

theorem offspring_of_error {cause : SearchError} (holds : storage.Holds ranked population)
    (failed : Search.offspring config population storage.source = (.error cause, source)) :
    ∃ later, offspring config ranked storage = (.error cause, later) ∧ later.source = source ∧
      storage.Keeps later := by
  have ensured := offspring_ensures config holds
  rw [failed] at ensured
  rcases answered : offspring config ranked storage with ⟨cause | placed, later⟩
  · obtain ⟨same, keeps⟩ := ensured.of_error answered
    cases same
    exact ⟨later, rfl, rfl, keeps⟩
  · obtain ⟨bred, same, -⟩ := ensured.of_ok answered
    cases same

end Breeding

end Storage

end EvoRaster
