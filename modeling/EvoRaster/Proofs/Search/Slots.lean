import EvoRaster.Proofs.Search.Copying
import EvoRaster.Proofs.Search.Reached

/-!
Contract: what breeding leaves in the slots of a search.

Owns:
- `evolve_fills_slots`, which says what every slot of the next generation holds, that the ranked population is left as
  it was, and what the outcome does not depend on.

The parents are ranked individuals that stay in the old population, and elites are bred for before they take their
slots. Neither the number of elites nor the individuals behind the parents can be seen in a child.
-/

namespace EvoRaster

namespace Search

theorem evolve_of_offspring {search : Search} {population : Population} {source : Source}
    (filled : offspring search.config search.population search.source = (.ok population, source)) :
    evolve search = (.ok (), { search with population, source }) := by
  rw [evolve_run, filled]

section TwoRuns

variable {search after : Search} (bred : evolve search = (.ok (), after))

include bred

theorem evolve_withElites (count : Nat) (fewer : count ≤ search.config.populationSize) :
    ∃ other, evolve { search with config := search.config.withElites count fewer } = (.ok (), other) ∧
      other.source = after.source ∧
      ∀ slot, min search.config.elites search.population.length ≤ slot → min count search.population.length ≤ slot →
        other.population[slot]? = after.population[slot]? := by
  obtain ⟨population, source, filled, rfl⟩ := offspring_of_evolve bred
  obtain ⟨others, filled', same⟩ := offspring_withElites filled count fewer
  exact ⟨_, evolve_of_offspring filled', rfl, same⟩

theorem evolve_of_take {others : Population}
    (same : others.take (max search.config.parents search.config.elites) =
      search.population.take (max search.config.parents search.config.elites)) :
    evolve { search with population := others } = (.ok (), after) := by
  obtain ⟨population, source, filled, rfl⟩ := offspring_of_evolve bred
  rw [← offspring_of_take same] at filled
  exact evolve_of_offspring filled

end TwoRuns

/-- Every slot of the next generation holds an elite or a child of the parent whose turn it is, drawn for in the order
of the slots. Nothing else of the search changes. Where the programs of the ranked population stand in places, they
are left there as they are, with their errors. Other elites change no slot that neither number of them takes, and
individuals behind parents and elites change nothing. -/
theorem evolve_fills_slots {search after : Search} (bred : evolve search = (.ok (), after)) :
    Bred search.config search.population search.source after.population after.source ∧
      after = { search with population := after.population, source := after.source } ∧
      (∀ (storage : Storage) (ranked : List Stored), storage.Holds ranked search.population →
        storage.source = search.source →
          ∃ placed later, Storage.offspring search.config ranked storage = (.ok placed, later) ∧
            later.source = after.source ∧ later.Holds placed after.population ∧ storage.Fresh placed ∧
            later.Holds ranked search.population ∧ storage.Keeps later) ∧
      (∀ (count : Nat) (fewer : count ≤ search.config.populationSize),
        ∃ other, evolve { search with config := search.config.withElites count fewer } = (.ok (), other) ∧
          other.source = after.source ∧
          ∀ slot, min search.config.elites search.population.length ≤ slot →
            min count search.population.length ≤ slot →
              other.population[slot]? = after.population[slot]?) ∧
      ∀ others : Population,
        others.take (max search.config.parents search.config.elites) =
            search.population.take (max search.config.parents search.config.elites) →
          evolve { search with population := others } = (.ok (), after) := by
  refine ⟨?_, ?_, ?_, fun count fewer => evolve_withElites bred count fewer,
    fun others same => evolve_of_take bred same⟩
  · obtain ⟨population, source, filled, rfl⟩ := offspring_of_evolve bred
    exact (offspring_ends search.config search.population search.source).of_ok filled
  · obtain ⟨population, source, filled, rfl⟩ := offspring_of_evolve bred
    rfl
  · intro storage ranked holds same
    obtain ⟨population, source, filled, rfl⟩ := offspring_of_evolve bred
    rw [← same] at filled
    obtain ⟨placed, later, ended, source, placedHolds, fresh, keeps⟩ := Storage.offspring_of_ok holds filled
    exact ⟨placed, later, ended, source, placedHolds, fresh, keeps.holds holds, keeps⟩

/-- Two parents take turns in three slots. The cosine drawn for the first slot is lost to the elite. -/
theorem evolve_fills_slots_of_three :
    let config : Config :=
      { Config.lone 2 1 with
        populationSize := 3, parents := 2, elites := 1
        one_le_parents := by decide, parents_le := by decide, elites_le := by decide }
    let ranked : Population :=
      [{ program := [Instr.const 1], error := some 1 }, { program := [Instr.const 2], error := some 2 }]
    let source : Source := .listed [0, 0x80000000, 0, 0x90000000, 0, 0xA0000000]
    let search : Search := { goal := GrayImage.black 1 1, config, source, population := ranked }
    ∃ after, evolve search = (.ok (), after) ∧
      after.population.map Individual.program =
        [[Instr.const 1], [Instr.const 2, Instr.unary .sin], [Instr.const 1, Instr.unary .atan]] ∧
      Bred config ranked source after.population after.source ∧
      ∃ placed later, Storage.offspring config (Storage.inSlots ranked) (Storage.ofPopulation ranked source) =
          (.ok placed, later) ∧
        later.Holds placed after.population ∧ later.Holds (Storage.inSlots ranked) ranked := by
  intro config ranked source search
  have succeeds : (evolve search).1 = .ok () := by decide +kernel
  have filled : (evolve search).2.population.map Individual.program =
      [[Instr.const 1], [Instr.const 2, Instr.unary .sin], [Instr.const 1, Instr.unary .atan]] := by
    decide +kernel
  have bred : evolve search = (.ok (), (evolve search).2) := Prod.ext succeeds rfl
  obtain ⟨slots, -, inPlaces, -⟩ := evolve_fills_slots bred
  obtain ⟨placed, later, ended, -, placedHolds, -, rankedHolds, -⟩ :=
    inPlaces (Storage.ofPopulation ranked source) (Storage.inSlots ranked)
      (Storage.ofPopulation_holds ranked source) rfl
  exact ⟨_, bred, filled, slots, placed, later, ended, placedHolds, rankedHolds⟩

end Search

end EvoRaster
