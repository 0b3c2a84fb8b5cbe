import EvoRaster.Proofs.Search.Steps

/-!
Contract: the slots of the next generation.

Owns:
- `Search.born`, the child of one slot, and `children_cons`, by which the children are born one after the other;
- `Search.Born` and `Search.BirthFails`: which words each slot draws, up to the last slot or to the one that fails;
- `Search.Bred`, what every slot of the next generation holds;
- `offspring_ends`: breeding fills the slots in this way, or fails in one of them;
- what breeding does not depend on: the number of elites, as far as the children go, and individuals that are neither
  parents nor elites.

Every slot gets a child, those of the elites too. The elites take their places afterwards, so their number does not
change what is drawn.
-/

namespace EvoRaster

namespace Search

/-- The child of a slot: the parent whose turn it is, mutated. -/
def born (config : Config) (ranked : Population) (slot : Nat) : ExceptT SearchError (StateM Source) Program :=
  match ranked[slot % config.parents]? with
  | none => throw (.population .noIndividual)
  | some parent =>
      (parent.program.mutateTimes Config.registers config.mutationsPerChild).adapt SearchError.variation

section Children

variable {config : Config} {ranked : Population} {source after : Source} {slot : Nat}

theorem born_of_turn {parent : Individual} (turn : ranked[slot % config.parents]? = some parent) :
    born config ranked slot =
      (parent.program.mutateTimes Config.registers config.mutationsPerChild).adapt SearchError.variation := by
  rw [born, turn]

theorem born_of_nobody (turn : ranked[slot % config.parents]? = none) :
    born config ranked slot = throw (.population .noIndividual) := by
  rw [born, turn]

private theorem born_eq_ok_iff {program : Program} :
    born config ranked slot source = (.ok program, after) ↔
      ∃ parent, ranked[slot % config.parents]? = some parent ∧
        parent.program.mutateTimes Config.registers config.mutationsPerChild source = (.ok program, after) := by
  cases turn : ranked[slot % config.parents]? with
  | none =>
      rw [born_of_nobody turn]
      constructor
      · exact nofun
      · rintro ⟨parent, taken, -⟩
        cases taken
  | some parent =>
      rw [born_of_turn turn]
      simp only [Option.some.injEq, exists_eq_left']
      rcases ended : parent.program.mutateTimes Config.registers config.mutationsPerChild source with
        ⟨cause | mutated, rest⟩
      · rw [adapt_of_error ended]
        exact ⟨nofun, nofun⟩
      · rw [adapt_of_ok ended, Prod.mk.injEq, Prod.mk.injEq, Except.ok.injEq, Except.ok.injEq]

/-- The children are born one after the other. -/
theorem children_cons (config : Config) (ranked : Population) (slot : Nat) (slots : List Nat) :
    children config ranked (slot :: slots) = born config ranked slot >>= fun program =>
      children config ranked slots >>= fun rest => pure ({ program } :: rest) := by
  funext source
  rw [children, child]
  cases turn : ranked[slot % config.parents]? with
  | none =>
      rw [born_of_nobody turn]
      rfl
  | some parent =>
      rw [born_of_turn turn]
      simp only
      generalize parent.program.mutateTimes Config.registers config.mutationsPerChild = mutated
      rcases ended : mutated source with ⟨cause | program, after⟩
      · have failed : ((some <$> mutated).adapt SearchError.variation) source = (.error (.variation cause), after) :=
          adapt_of_error (map_of_error ended)
        rw [bind_of_error failed, bind_of_error (adapt_of_error ended)]
      · have drawn : ((some <$> mutated).adapt SearchError.variation) source = (.ok (some program), after) :=
          adapt_of_ok (map_of_ok ended)
        rw [bind_of_ok drawn, bind_of_ok (adapt_of_ok ended)]

/-! ## Slot after slot -/

/-- The slots from `first` to before `last` get these children. Each finds the source that the one before it has
left. -/
def Born (config : Config) (ranked : Population) (stages : Nat → Source) (programs : Nat → Program)
    (first last : Nat) : Prop :=
  ∀ slot, first ≤ slot → slot < last → ∃ parent, ranked[slot % config.parents]? = some parent ∧
    parent.program.mutateTimes Config.registers config.mutationsPerChild (stages slot) =
      (.ok (programs slot), stages (slot + 1))

theorem Born.cons {stages : Nat → Source} {programs : Nat → Program} {first last : Nat} {program : Program}
    (rest : Born config ranked stages programs (first + 1) last)
    (here : born config ranked first source = (.ok program, stages (first + 1))) :
    Born config ranked (fun slot => if slot = first then source else stages slot)
      (fun slot => if slot = first then program else programs slot) first last := by
  intro slot least before
  by_cases same : slot = first
  · subst same
    simpa using born_eq_ok_iff.mp here
  · simpa [same, show slot + 1 ≠ first by omega] using rest slot (by omega) before

/-- All slots get a child, or there is a first slot that gets none. -/
theorem children_ends (config : Config) (ranked : Population) (first count : Nat) (source : Source) :
    Ensures (children config ranked (List.range' first count)) source
      (fun population after => ∃ stages programs, stages first = source ∧ stages (first + count) = after ∧
        Born config ranked stages programs first (first + count) ∧
        population = (List.range' first count).map fun slot => { program := programs slot })
      fun cause after => ∃ stages programs slot, stages first = source ∧ first ≤ slot ∧ slot < first + count ∧
        Born config ranked stages programs first slot ∧
        born config ranked slot (stages slot) = (.error cause, after) := by
  induction count generalizing first source with
  | zero =>
      refine Ensures.of_pure ⟨fun _ => source, fun _ => [], rfl, rfl, fun slot least before => ?_, rfl⟩
      omega
  | succ count inductionHypothesis =>
      rw [List.range'_succ, children_cons]
      refine Ensures.bind (Ensures.intro ?_ ?_)
      · intro program between ended
        refine Ensures.bind ((inductionHypothesis (first + 1) between).mono ?_ ?_)
        · rintro _ after ⟨stages, programs, rfl, last, rest, rfl⟩
          rw [show first + 1 + count = first + (count + 1) by omega] at last rest
          refine Ensures.of_pure ⟨_, _, if_pos rfl, ?_, rest.cons ended, ?_⟩
          · rw [if_neg (by omega), last]
          · rw [List.map_cons, if_pos rfl]
            congr 1
            apply List.map_congr_left
            intro slot member
            have later := List.left_le_of_mem_range' member
            rw [if_neg (by omega)]
        · rintro cause after ⟨stages, programs, slot, rfl, least, before, rest, failed⟩
          refine ⟨_, _, slot, if_pos rfl, by omega, by omega, rest.cons ended, ?_⟩
          rw [if_neg (by omega)]
          exact failed
      · intro cause after failed
        refine ⟨fun _ => source, fun _ => [], first, rfl, Nat.le_refl _, by omega, ?_, failed⟩
        intro slot least before
        omega

end Children

/-! ## The next generation -/

/-- What the slots of the next generation hold, and the source that the last of them leaves. -/
structure Bred (config : Config) (ranked : Population) (source : Source) (population : Population)
    (after : Source) : Prop where
  size : population.length = config.populationSize
  unevaluated : ∀ individual ∈ population, individual.error = none
  elites : ∀ slot < min config.elites ranked.length, ∃ elite, ranked[slot]? = some elite ∧
    population[slot]? = some { program := elite.program }
  children : ∃ stages programs, stages 0 = source ∧ stages config.populationSize = after ∧
    Born config ranked stages programs 0 config.populationSize ∧
    ∀ slot, min config.elites ranked.length ≤ slot → slot < config.populationSize →
      population[slot]? = some { program := programs slot }

/-- The children of all slots before this one were born, and the child of this one was not. -/
inductive BreedingFails (config : Config) (ranked : Population) (source : Source) : SearchError → Source → Prop where
  | nobody {stages : Nat → Source} {programs : Nat → Program} {slot : Nat} (first : stages 0 = source)
      (within : slot < config.populationSize) (born : Born config ranked stages programs 0 slot)
      (missing : ranked.length ≤ slot % config.parents) :
      BreedingFails config ranked source (.population .noIndividual) (stages slot)
  | mutation {stages : Nat → Source} {programs : Nat → Program} {slot : Nat} {parent : Individual}
      {cause : VariationError} {after : Source} (first : stages 0 = source)
      (within : slot < config.populationSize) (born : Born config ranked stages programs 0 slot)
      (turn : ranked[slot % config.parents]? = some parent)
      (failed : parent.program.mutateTimes Config.registers config.mutationsPerChild (stages slot) =
        (.error cause, after)) :
      BreedingFails config ranked source (.variation cause) after

theorem length_elites (config : Config) (ranked : Population) :
    (elites config ranked).length = min config.elites ranked.length := by
  rw [elites, List.length_map, List.length_take]

/-- Slots that are not taken by elites keep their children. -/
theorem getElem?_elites_append {config : Config} {ranked children : Population} {slot : Nat}
    (least : min config.elites ranked.length ≤ slot) :
    (elites config ranked ++ children.drop (elites config ranked).length)[slot]? = children[slot]? := by
  have kept := length_elites config ranked
  rw [List.getElem?_append_right (by omega), List.getElem?_drop]
  congr 1
  omega

/-- The elites stand in the first slots, and children in the others. -/
private theorem bred_of_children {config : Config} {ranked : Population} {source after : Source}
    {stages : Nat → Source} {programs : Nat → Program} (first : stages 0 = source)
    (last : stages config.populationSize = after)
    (born : Born config ranked stages programs 0 config.populationSize) :
    Bred config ranked source
      (elites config ranked ++ ((List.range config.populationSize).map fun slot =>
        ({ program := programs slot } : Individual)).drop (elites config ranked).length) after := by
  have kept := length_elites config ranked
  have fewer := config.elites_le
  constructor
  · simp only [List.length_append, List.length_drop, List.length_map, List.length_range]
    omega
  · intro individual member
    rcases List.mem_append.mp member with elite | child
    · rcases List.mem_map.mp elite with ⟨original, -, rfl⟩
      rfl
    · rcases List.mem_map.mp (List.mem_of_mem_drop child) with ⟨slot, -, rfl⟩
      rfl
  · intro slot before
    have inside : slot < ranked.length := by omega
    refine ⟨ranked[slot], List.getElem?_eq_getElem inside, ?_⟩
    rw [List.getElem?_append_left (by omega), elites, List.getElem?_map,
      List.getElem?_take_of_lt (by omega), List.getElem?_eq_getElem inside]
    rfl
  · refine ⟨stages, programs, first, last, born, fun slot least within => ?_⟩
    rw [getElem?_elites_append least, List.getElem?_map, List.getElem?_range within]
    rfl

/-- Breeding fills the slots one after the other, or fails in one of them. -/
theorem offspring_ends (config : Config) (ranked : Population) (source : Source) :
    Ensures (offspring config ranked) source (Bred config ranked source) (BreedingFails config ranked source) := by
  have children := children_ends config ranked 0 config.populationSize source
  rw [← List.range_eq_range', Nat.zero_add] at children
  refine Ensures.bind (children.mono ?_ ?_)
  · rintro _ after ⟨stages, programs, first, last, born, rfl⟩
    exact Ensures.of_pure (bred_of_children first last born)
  · rintro cause after ⟨stages, programs, slot, first, -, within, born, failed⟩
    cases turn : ranked[slot % config.parents]? with
    | none =>
        rw [born_of_nobody turn] at failed
        cases failed
        exact .nobody first within born (List.getElem?_eq_none_iff.mp turn)
    | some parent =>
        rw [born_of_turn turn] at failed
        rcases ended : parent.program.mutateTimes Config.registers config.mutationsPerChild (stages slot) with
          ⟨cause | program, rest⟩
        · rw [adapt_of_error ended] at failed
          cases failed
          exact .mutation first within born turn ended
        · rw [adapt_of_ok ended] at failed
          cases failed

/-! ## What breeding does not depend on -/

theorem children_congr {config config' : Config} {ranked ranked' : Population}
    (same : ∀ slot, born config' ranked' slot = born config ranked slot) (slots : List Nat) :
    children config' ranked' slots = children config ranked slots := by
  induction slots with
  | nil => rfl
  | cons slot slots inductionHypothesis =>
      rw [children_cons, children_cons, same slot, inductionHypothesis]

theorem offspring_congr {config config' : Config} {ranked ranked' : Population}
    (sized : config'.populationSize = config.populationSize)
    (sameChildren : ∀ slot, born config' ranked' slot = born config ranked slot)
    (sameElites : elites config' ranked' = elites config ranked) :
    offspring config' ranked' = offspring config ranked := by
  rw [offspring, offspring, sized, children_congr sameChildren, sameElites]

/-- Individuals that are neither parents nor elites do not matter. -/
theorem offspring_of_take {config : Config} {ranked others : Population}
    (same : others.take (max config.parents config.elites) = ranked.take (max config.parents config.elites)) :
    offspring config others = offspring config ranked := by
  have sameParents (slot : Nat) : born config others slot = born config ranked slot := by
    have turn : slot % config.parents < max config.parents config.elites :=
      Nat.lt_of_lt_of_le (Nat.mod_lt _ config.one_le_parents) (Nat.le_max_left _ _)
    rw [born, born, ← List.getElem?_take_of_lt turn, same, List.getElem?_take_of_lt turn]
  have sameElites : elites config others = elites config ranked := by
    have first (population : Population) : population.take config.elites =
        (population.take (max config.parents config.elites)).take config.elites := by
      rw [List.take_take, Nat.min_eq_left (Nat.le_max_right _ _)]
    rw [elites, elites, first others, same, ← first ranked]
  exact offspring_congr rfl sameParents sameElites

end Search

/-- The same settings, but for the number of elites. -/
def Config.withElites (config : Config) (elites : Nat) (fewer : elites ≤ config.populationSize) : Config :=
  { config with elites, elites_le := fewer }

/-- The number of elites does not change what is drawn, nor the slots that no elite takes. -/
theorem Search.offspring_withElites {config : Config} {ranked population : Population} {source after : Source}
    (bred : offspring config ranked source = (.ok population, after)) (count : Nat)
    (fewer : count ≤ config.populationSize) :
    ∃ other, offspring (config.withElites count fewer) ranked source = (.ok other, after) ∧
      ∀ slot, min config.elites ranked.length ≤ slot → min count ranked.length ≤ slot →
        other[slot]? = population[slot]? := by
  have sameChildren : children (config.withElites count fewer) ranked (List.range config.populationSize) =
      children config ranked (List.range config.populationSize) := by
    apply children_congr
    intro slot
    rfl
  rcases born : children config ranked (List.range config.populationSize) source with ⟨cause | children, rest⟩
  · have failed : offspring config ranked source = (.error cause, rest) := bind_of_error born
    rw [failed] at bred
    cases bred
  · have filled : offspring config ranked source =
        (.ok (elites config ranked ++ children.drop (elites config ranked).length), rest) := bind_of_ok born
    rw [filled] at bred
    cases bred
    refine ⟨_, bind_of_ok (sameChildren ▸ born), fun slot least least' => ?_⟩
    have other : min (config.withElites count fewer).elites ranked.length ≤ slot := least'
    rw [getElem?_elites_append least]
    exact getElem?_elites_append other

end EvoRaster
