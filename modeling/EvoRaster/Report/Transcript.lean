import EvoRaster.Decimal.Fixed
import EvoRaster.Report.Results

/-!
Contract: what a run leaves behind, the lines it prints and the files it writes.

Owns:
- the notices, one for each printed message, and their wording;
- the files, pictures and texts by name;
- the transcript, both in the order in which they arose.

Durations are not part of a notice. Whoever prints it supplies them.
-/

namespace EvoRaster

inductive Notice where
  | starting (populationSize generations width height : Nat)
  | workers (count : Nat)
  | generation (number populationSize codeSize : Nat) (errorPerPixel : Float)
  | stopping (stale : Nat)
  | bestError (error errorPerPixel : Float)
  | bestProgram (text : String)
  | resultsSaved (name : String)
  | launching (image : String) (populationSize generations : Int)
  | finalError (error : Float)
  | savedTo (name : String)
deriving DecidableEq

/-- The text of a message, with its line end. `duration` gives the milliseconds that a generation took,
as text. -/
def Notice.text (duration : Nat → String) : Notice → String
  | .starting populationSize generations width height =>
      s!"Starting GP: {populationSize} individuals, {generations} generations, {width}x{height} image\n"
  | .workers count => s!"Using {count} parallel workers\n"
  | .generation number populationSize codeSize errorPerPixel =>
      s!"Gen: {number}, Population: {populationSize}, Code: {codeSize}, Error: " ++
        Decimal.fixed 4 false errorPerPixel ++ ",\tTime: " ++ duration number ++ " ms\n"
  | .stopping stale => s!"\nNo improvement for {stale} generations, stopping\n"
  | .bestError error errorPerPixel =>
      "\nBest error: " ++ Decimal.fixed 0 true error ++ " (" ++ Decimal.fixed 4 false errorPerPixel ++
        " per pixel)\n"
  | .bestProgram text => "Program: " ++ text ++ "\n"
  | .resultsSaved name => "Results saved to " ++ name ++ "\n"
  | .launching image populationSize generations =>
      s!"Running GP on {image} with pop={populationSize}, gen={generations}\n"
  | .finalError error => "\nFinal: " ++ Decimal.fixed 0 true error ++ " error\n"
  | .savedTo name => "Saved to " ++ name ++ "\n"

inductive FileContent where
  | picture (image : GrayImage)
  | text (content : String)
  | results (results : Results)

/-- The messages and files of a run so far. -/
structure Transcript where
  notices : Array Notice := #[]
  files : Array (String × FileContent) := #[]

namespace Transcript

def add (transcript : Transcript) (notice : Notice) : Transcript :=
  { transcript with notices := transcript.notices.push notice }

/-- Records a written file. A later file of the same name replaces an earlier one. -/
def addFile (transcript : Transcript) (name : String) (content : FileContent) : Transcript :=
  { transcript with files := transcript.files.push (name, content) }

def printed (transcript : Transcript) (duration : Nat → String) : String :=
  String.join (transcript.notices.toList.map (Notice.text duration))

end Transcript

def inDirectory (directory name : String) : String :=
  if directory.isEmpty || directory.endsWith "/" then directory ++ name
  else directory ++ "/" ++ name

end EvoRaster
