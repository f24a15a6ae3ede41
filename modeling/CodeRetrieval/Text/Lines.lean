import CodeRetrieval.Text.Basic

set_option autoImplicit false

namespace CodeRetrieval.Text

namespace Chars

/-- A line without the carriage return that belongs to its line feed. -/
def dropReturn (line : List Char) : List Char :=
  if line.getLast? = some '\r' then line.dropLast else line

def closeLines : List (List Char) → List (List Char)
  | [] => []
  | [last] => if last.isEmpty then [] else [last]
  | piece :: more => dropReturn piece :: closeLines more

def lines (s : List Char) : List (List Char) := closeLines (splitBy (· == '\n') s)

end Chars

def lines (s : String) : List String := (Chars.lines s.toList).map String.ofList

def lineCount (s : String) : Nat := (Chars.lines s.toList).length

def unlines (ls : List String) : String := "\n".intercalate ls

end CodeRetrieval.Text
