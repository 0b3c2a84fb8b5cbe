import EvoRaster.Search.Config
import EvoRaster.Text.Numeral

/-!
Contract: the command line of the search.

Owns:
- the options, their spellings and whether they take a value;
- the pieces that the arguments are sorted into;
- `Arguments.read`, the settings that the arguments ask for, or the reason why there are none.

A long option may be cut short as long as one option alone begins that way, and may carry its value after an equals
sign. A short option may carry its value directly. A negative number is a value, never an option. After a double
dash nothing is an option. One argument that is neither an option nor a value names the image.
-/

namespace EvoRaster.CommandLine

inductive Choice where
  | help
  | generations
  | population
  | best
  | elite
  | mutations
  | workers
  | seed
  | baseline
  | patience
  | output
deriving DecidableEq, Repr

inductive Refusal where
  | usage
  | help
  /-- A double dash is attached to an option as its value. -/
  | lostValue
deriving DecidableEq, Repr

/-- The code that the program exits with, if it exits. -/
def Refusal.exitCode? : Refusal → Option Nat
  | .usage => some 2
  | .help => some 0
  | .lostValue => none

def Refusal.message : Refusal → String
  | .usage => "2"
  | .help => "0"
  | .lostValue => "not enough values to unpack (expected 1, got 0)"

namespace Choice

def spellings : List (List Char × Choice) :=
  [("-h", help), ("--help", help), ("--generations", generations), ("-g", generations),
    ("--population", population), ("-p", population), ("--best", best), ("-b", best),
    ("--elite", elite), ("-e", elite), ("--mutations", mutations), ("-m", mutations),
    ("--workers", workers), ("-w", workers), ("--seed", seed), ("--baseline", baseline),
    ("--patience", patience), ("--output", output), ("-o", output)].map
    fun (spelling, choice) => (spelling.toList, choice)

def spelled? (spelling : List Char) : Option Choice := spellings.lookup spelling

def takesValue : Choice → Bool
  | .help | .baseline => false
  | _ => true

end Choice

/-- A value that is part of the argument that names the option. -/
structure Attached where
  afterEquals : Bool
  value : List Char
deriving DecidableEq

inductive Piece where
  | separator
  | plain (text : String)
  | known (choice : Choice) (attached : Option Attached)
  | unknown
deriving DecidableEq

namespace Piece

def splitAtEquals (text : List Char) : Option (List Char × List Char) :=
  match text.dropWhile (· ≠ '=') with
  | [] => none
  | _ :: value => some (text.takeWhile (· ≠ '='), value)

/-- The options that a text with two dashes can be cut short from, or that a text with one dash begins
with. -/
def candidates (text : List Char) : List (Choice × Option Attached) :=
  match text with
  | '-' :: '-' :: _ =>
      let (start, attached) : List Char × Option Attached := match splitAtEquals text with
        | some (start, value) => (start, some { afterEquals := true, value })
        | none => (text, none)
      Choice.spellings.filterMap fun (spelling, choice) =>
        if start.isPrefixOf spelling then some (choice, attached) else none
  | dash :: letter :: value =>
      Choice.spellings.filterMap fun (spelling, choice) =>
        if spelling = [dash, letter] then some (choice, some { afterEquals := false, value }) else none
  | _ => []

/-- A minus sign before digits with at most one point, which has digits after it. -/
def isNegativeNumber (text : List Char) : Bool :=
  match text with
  | '-' :: body =>
      let body := if body.getLast? = some '\n' then body.dropLast else body
      let isDigit := fun c => (Text.digitValue? c).isSome
      match body.dropWhile isDigit with
      | [] => !body.isEmpty
      | '.' :: fraction => !fraction.isEmpty && fraction.all isDigit
      | _ => false
  | _ => false

def ofText (text : String) : Except Refusal Piece :=
  let letters := text.toList
  if letters.head? ≠ some '-' then .ok (.plain text)
  else if let some choice := Choice.spelled? letters then .ok (.known choice none)
  else if letters = ['-'] then .ok (.plain text)
  else if let some (choice, value) := (splitAtEquals letters).bind fun (start, value) =>
      (Choice.spelled? start).map (·, value) then
    .ok (.known choice (some { afterEquals := true, value }))
  else
    match candidates letters with
    | [(choice, attached)] => .ok (.known choice attached)
    | _ :: _ :: _ => .error .usage
    | [] =>
        if isNegativeNumber letters || letters.contains ' ' then .ok (.plain text) else .ok .unknown

/-- Sorts all arguments. The first double dash is a separator and everything after it is plain. -/
def ofTexts : List String → Except Refusal (List Piece)
  | [] => .ok []
  | text :: rest =>
      if text = "--" then
        .ok (.separator :: rest.map .plain)
      else do
        let piece ← ofText text
        let pieces ← ofTexts rest
        return piece :: pieces

end Piece

/-- What the arguments ask for. -/
structure Arguments where
  image : Option String := none
  settings : Settings := {}
  output : String := "result"
  surplus : Bool := false
deriving DecidableEq

namespace Arguments

def store (arguments : Arguments) (choice : Choice) (value : String) : Except Refusal Arguments := do
  let settings := arguments.settings
  let number := (Text.readInteger value).mapError fun _ => Refusal.usage
  match choice with
  | .help => throw .help
  | .baseline => throw .usage
  | .output => return { arguments with output := value }
  | .generations => return { arguments with settings := { settings with generations := ← number } }
  | .population => return { arguments with settings := { settings with populationSize := ← number } }
  | .best => return { arguments with settings := { settings with parents := ← number } }
  | .elite => return { arguments with settings := { settings with elites := ← number } }
  | .mutations => return { arguments with settings := { settings with mutationsPerChild := ← number } }
  | .workers => return { arguments with settings := { settings with workers := ← number } }
  | .seed => return { arguments with settings := { settings with seed := some (← number) } }
  | .patience => return { arguments with settings := { settings with patience := some (← number) } }

def turnOn (arguments : Arguments) : Choice → Except Refusal Arguments
  | .help => .error .help
  | .baseline =>
      .ok { arguments with settings := { arguments.settings with model := .squared } }
  | _ => .error .usage

/-- The letters that follow the short option for help are short options too. All of them are understood
before help is given. -/
def helpAmong : List Char → List Piece → Refusal
  | [], _ => .help
  | letter :: value, rest =>
      if letter = '-' then .usage
      else
        match Choice.spelled? ['-', letter] with
        | none => .help
        | some choice =>
            match choice.takesValue, value with
            | true, [] => match rest with
                | .plain _ :: _ => .help
                | _ => .usage
            | true, _ => .help
            | false, '=' :: _ => .usage
            | false, value => helpAmong value rest

def storeAttached (arguments : Arguments) (choice : Choice) (attached : Attached)
    (rest : List Piece) : Except Refusal Arguments :=
  if choice.takesValue then
    if attached.value = ['-', '-'] then .error .lostValue
    else arguments.store choice (String.ofList attached.value)
  else if attached.afterEquals || attached.value.isEmpty then .error .usage
  else .error (helpAmong attached.value rest)

/-- Takes the pieces in order. A separator beside the image is part of it. -/
def takePieces : List Piece → Arguments → Except Refusal Arguments
  | [], arguments => .ok arguments
  | .plain text :: .separator :: rest, arguments =>
      if arguments.image.isNone then takePieces rest { arguments with image := some text }
      else takePieces rest { arguments with surplus := true }
  | .plain text :: rest, arguments =>
      if arguments.image.isNone then takePieces rest { arguments with image := some text }
      else takePieces rest { arguments with surplus := true }
  | .separator :: .plain text :: rest, arguments =>
      if arguments.image.isNone then takePieces rest { arguments with image := some text }
      else takePieces rest { arguments with surplus := true }
  | .separator :: rest, arguments => takePieces rest { arguments with surplus := true }
  | .unknown :: rest, arguments => takePieces rest { arguments with surplus := true }
  | .known choice (some attached) :: rest, arguments => do
      let arguments ← arguments.storeAttached choice attached rest
      takePieces rest arguments
  | .known choice none :: .plain value :: rest, arguments =>
      if choice.takesValue then do
        let arguments ← arguments.store choice value
        takePieces rest arguments
      else do
        let arguments ← arguments.turnOn choice
        takePieces (.plain value :: rest) arguments
  | .known choice none :: rest, arguments => do
      let arguments ← arguments.turnOn choice
      takePieces rest arguments
termination_by pieces => pieces.length

/-- What the arguments ask for. They must name an image and hold nothing without a meaning. -/
def read (texts : List String) : Except Refusal (String × Arguments) := do
  let pieces ← Piece.ofTexts texts
  let arguments ← takePieces pieces {}
  match arguments.image with
  | some image => if arguments.surplus then throw .usage else return (image, arguments)
  | none => throw .usage

end Arguments

end EvoRaster.CommandLine
