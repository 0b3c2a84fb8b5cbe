import EvoRaster.CommandLine.Command
import EvoRaster.CommandLine.Help
import EvoRaster.Picture.Png

/-!
Contract: the program.

It carries out a command step by step: every message is printed and every file written as soon as the step that
made it is done, and the time that each generation took is measured. The name under which the program is started
decides between the commands. A name that ends in `launch` starts the launcher.
-/

namespace EvoRaster.Main

open EvoRaster.CommandLine

def directoryOf (name : String) : String :=
  "/".intercalate (name.splitOn "/").dropLast

/-- The bytes of a written file, given the seconds that each generation took. -/
def contentBytes (seconds : Nat → String) : FileContent → ByteArray
  | .picture image => Picture.encode image
  | .text content => content.toUTF8
  | .results results => (results.text seconds).toUTF8

/-- The time of a generation in milliseconds, with the given number of decimal places. -/
def durationText (durations : Array Float) (places : Nat) (unit : Float) (number : Nat) : String :=
  Decimal.fixed places false (durations[number]?.getD 0 / unit)

def publish (durations : Array Float) (transcript : Transcript) : IO Unit := do
  (← IO.getStdout).putStr (transcript.printed (durationText durations 0 1))
  (← IO.getStdout).flush
  for (name, content) in transcript.files do
    let directory := directoryOf name
    unless directory.isEmpty do IO.FS.createDirAll directory
    IO.FS.writeBinFile name (contentBytes (durationText durations 6 1000) content)

/-- Takes a step of a run and publishes what it leaves. Answers the time that it took. -/
def perform {α : Type} (step : RunStep α) (number : Nat) (durations : Array Float) (run : Run) :
    IO (Except SearchError α × Array Float × Run) := do
  let start ← IO.monoNanosNow
  let (outcome, run) ← IO.lazyPure fun _ => step.run run
  let finish ← IO.monoNanosNow
  let durations :=
    if durations.size = number then durations.push (Float.ofNat (finish - start) / 1000000)
    else durations
  publish durations run.transcript
  return (outcome, durations, { run with transcript := {} })

def generations : Nat → Nat → Array Float → Run → IO (Except SearchError Unit × Array Float × Run)
  | 0, _, durations, run => return (.ok (), durations, run)
  | remaining + 1, number, durations, run => do
      let (outcome, durations, run) ← perform (Run.generation number) number durations run
      match outcome with
      | .ok false => generations remaining (number + 1) durations run
      | .ok true => return (.ok (), durations, run)
      | .error cause => return (.error cause, durations, run)

def carryOut (job : Job) : IO (Except SearchError Unit) := do
  let config := job.run.search.config
  let (_, _, run) ← perform Run.start config.generations #[] job.run
  let (outcome, durations, run) ← generations config.generations 0 #[] run
  match outcome with
  | .error cause => return .error cause
  | .ok () =>
      let last : RunStep Unit := do
        Run.conclude
        job.command.finish job.results
      let (outcome, _, _) ← perform last (durations.size + 1) durations run
      return outcome

def load (name : String) : IO (Except LoadError GrayImage) := do
  match ← (IO.FS.readBinFile name).toBaseIO with
  | .error _ => return .error (.missing name)
  | .ok file =>
      match Picture.decode file with
      | some image => return .ok image
      | none => return .error (.unidentified name)

/-- The image that a command's arguments name, if they can be understood. -/
def imageName? (command : Command) (texts : List String) : Option String :=
  match command with
  | .search => (Arguments.read texts).toOption.map Prod.fst
  | .launch => (Command.readLaunch texts).toOption.map Command.LaunchRequest.image

/-- A source that nobody can foresee. -/
def unforeseen : IO Source := do
  let bytes ← IO.getRandomBytes 32
  return Source.ofSeed (bytes.toList.foldl (fun seed byte => seed * 256 + byte.toNat) 0 : Nat)

/-- Says why the arguments do not ask for a search. Answers the exit code. -/
def refuse (name : String) (cause : Refusal) : IO UInt32 := do
  match cause with
  | .help => IO.println (helpText name)
  | .usage => IO.eprintln (usageLine name)
  | .lostValue => IO.eprintln cause.message
  return UInt32.ofNat (cause.exitCode?.getD 1)

/-- Carries out a command from its arguments, under the name of the program. Answers the exit code. -/
def carryOutWith (name : String) (command : Command) (texts : List String) : IO UInt32 := do
  let goal ← match imageName? command texts with
    | some image => load image
    | none => pure (.error (.missing ""))
  let surroundings : Surroundings := { load := fun _ => goal, unseeded := ← unforeseen }
  let (prepared, transcript) := command.prepare surroundings texts
  match prepared with
  | .error (.refusal cause) => refuse name cause
  | .error cause =>
      publish #[] transcript
      IO.eprintln cause.message
      return 1
  | .ok job =>
      match ← carryOut job with
      | .ok () => return 0
      | .error cause =>
          IO.eprintln cause.message
          return 1

end EvoRaster.Main

def main (arguments : List String) : IO UInt32 := do
  let name := ((← IO.appPath).toString.splitOn "/").getLast?.getD ""
  EvoRaster.Main.carryOutWith name (if name.endsWith "launch" then .launch else .search) arguments
