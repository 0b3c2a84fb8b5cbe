/-!
Contract: indented records.

Every field of a record and every item of a list stands on a line of its own, two spaces further in than what
holds it. An empty record or list is written without a line break.
-/

namespace EvoRaster

inductive Document where
  | word (text : String)
  /-- Written between quotation marks. Texts of programs hold nothing that has to be escaped. -/
  | quoted (text : String)
  | list (items : List Document)
  | record (fields : List (String × Document))

namespace Document

def natural (count : Nat) : Document := .word (toString count)

def integer (number : Int) : Document := .word (toString number)

def truth (value : Bool) : Document := .word (if value then "true" else "false")

def optional {α : Type} (write : α → Document) : Option α → Document
  | some value => write value
  | none => .word "null"

/-- The start of a line at a depth. -/
def margin (depth : Nat) : String := "\n" ++ "".pushn ' ' (2 * depth)

def bracket (opening closing : String) (depth : Nat) (items : List String) : String :=
  if items.isEmpty then
    opening ++ closing
  else
    opening ++ margin (depth + 1) ++ ("," ++ margin (depth + 1)).intercalate items ++
      margin depth ++ closing

mutual

/-- The text of a value that stands at a depth. -/
def textAt (depth : Nat) : Document → String
  | .word text => text
  | .quoted text => "\"" ++ text ++ "\""
  | .list items => bracket "[" "]" depth (itemTexts (depth + 1) items)
  | .record fields => bracket "\x7b" "\x7d" depth (fieldTexts (depth + 1) fields)

def itemTexts (depth : Nat) : List Document → List String
  | [] => []
  | item :: rest => item.textAt depth :: itemTexts depth rest

def fieldTexts (depth : Nat) : List (String × Document) → List String
  | [] => []
  | (name, value) :: rest => ("\"" ++ name ++ "\": " ++ value.textAt depth) :: fieldTexts depth rest

end

def text (document : Document) : String := document.textAt 0

end Document

end EvoRaster
