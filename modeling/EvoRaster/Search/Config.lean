/-!
Contract: the settings of a search, and what makes them acceptable.

Owns:
- `Settings`, any integers, with the default of each;
- `Config`, settings that the search can run, with the bounds as part of the type;
- `Settings.check`, which names the first setting that is out of bounds.
-/

namespace EvoRaster

inductive ErrorModel where
  | perceptual
  | squared
deriving DecidableEq, Repr

structure Settings where
  populationSize : Int := 70
  generations : Int := 15000
  parents : Int := 10
  elites : Int := 0
  mutationsPerChild : Int := 2
  registers : Int := 2
  model : ErrorModel := .perceptual
  workers : Int := 1
  seed : Option Int := none
  patience : Option Int := none
deriving DecidableEq, Repr

/-- Settings that a search can run. -/
structure Config where
  populationSize : Nat
  generations : Nat
  /-- How many of the best individuals are bred from. -/
  parents : Nat
  /-- How many of the best individuals are carried over unchanged. -/
  elites : Nat
  mutationsPerChild : Nat
  model : ErrorModel
  workers : Nat
  seed : Option Int
  /-- After how many generations without improvement the search stops. -/
  patience : Option Nat
  one_le_parents : 1 ≤ parents
  parents_le : parents ≤ populationSize
  elites_le : elites ≤ populationSize
  one_le_workers : 1 ≤ workers
  one_le_patience : ∀ limit ∈ patience, 1 ≤ limit
deriving DecidableEq

/-- The registers of every program of a search: the two coordinates of a pixel. -/
def Config.registers : Nat := 2

inductive ConfigError where
  | populationSize
  | parents
  | elites
  | mutationsPerChild
  | registers
  | generations
  | workers
  | patience
deriving DecidableEq, Repr

def ConfigError.message : ConfigError → String
  | .populationSize => "population_size must be >= 1"
  | .parents => "n_best must be between 1 and population_size"
  | .elites => "n_elite must be between 0 and population_size"
  | .mutationsPerChild => "mutations_per_child must be >= 0"
  | .registers => "nvars must be 2: images are rendered from x and y"
  | .generations => "generations must be >= 0"
  | .workers => "workers must be >= 1"
  | .patience => "patience must be >= 1"

namespace Settings

def Acceptable (settings : Settings) : Prop :=
  1 ≤ settings.populationSize ∧
    (1 ≤ settings.parents ∧ settings.parents ≤ settings.populationSize) ∧
    (0 ≤ settings.elites ∧ settings.elites ≤ settings.populationSize) ∧
    0 ≤ settings.mutationsPerChild ∧ settings.registers = Config.registers ∧
    0 ≤ settings.generations ∧ 1 ≤ settings.workers ∧
    ∀ limit ∈ settings.patience, 1 ≤ limit

def toConfig (settings : Settings) (acceptable : settings.Acceptable) : Config :=
  { populationSize := settings.populationSize.toNat
    generations := settings.generations.toNat
    parents := settings.parents.toNat
    elites := settings.elites.toNat
    mutationsPerChild := settings.mutationsPerChild.toNat
    model := settings.model
    workers := settings.workers.toNat
    seed := settings.seed
    patience := settings.patience.map Int.toNat
    one_le_parents := by
      obtain ⟨_, ⟨lower, _⟩, _⟩ := acceptable
      omega
    parents_le := by
      obtain ⟨_, ⟨_, upper⟩, _⟩ := acceptable
      omega
    elites_le := by
      obtain ⟨_, _, ⟨_, upper⟩, _⟩ := acceptable
      omega
    one_le_workers := by
      obtain ⟨_, _, _, _, _, _, lower, _⟩ := acceptable
      omega
    one_le_patience := by
      obtain ⟨_, _, _, _, _, _, _, lower⟩ := acceptable
      intro limit member
      cases given : settings.patience with
      | none => simp [given] at member
      | some value =>
          have atLeast := lower value (by simp [given])
          simp only [given, Option.map_some, Option.mem_def, Option.some.injEq] at member
          omega }

/-- The settings as a configuration, or the first one that is out of bounds. -/
def check (settings : Settings) : Except ConfigError Config :=
  if sized : ¬1 ≤ settings.populationSize then .error .populationSize
  else if bred : ¬(1 ≤ settings.parents ∧ settings.parents ≤ settings.populationSize) then
    .error .parents
  else if kept : ¬(0 ≤ settings.elites ∧ settings.elites ≤ settings.populationSize) then
    .error .elites
  else if mutated : ¬0 ≤ settings.mutationsPerChild then .error .mutationsPerChild
  else if registered : settings.registers ≠ Config.registers then .error .registers
  else if counted : ¬0 ≤ settings.generations then .error .generations
  else if staffed : ¬1 ≤ settings.workers then .error .workers
  else if patient : ¬∀ limit ∈ settings.patience, 1 ≤ limit then .error .patience
  else
    .ok (settings.toConfig
      ⟨by omega, by omega, by omega, by omega, by omega, by omega, by omega,
        Decidable.not_not.mp patient⟩)

end Settings

end EvoRaster
