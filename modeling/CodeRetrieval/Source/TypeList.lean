import CodeRetrieval.Text.Basic

set_option autoImplicit false

namespace CodeRetrieval.Source

/-- Pieces between the commas outside all brackets; `current` is the piece at hand, in reverse. -/
def typePieces : Int → List Char → List Char → List (List Char)
  | _, current, [] => [current.reverse]
  | depth, current, c :: rest =>
    if c = '<' then typePieces (depth + 1) (c :: current) rest
    else if c = '>' then typePieces (depth - 1) (c :: current) rest
    else if c = ',' ∧ depth = 0 then current.reverse :: typePieces depth [] rest
    else typePieces depth (c :: current) rest

def splitTypes (list : String) : List String :=
  (((typePieces 0 [] list.toList).map Text.Chars.trim).filter (!·.isEmpty)).map String.ofList

end CodeRetrieval.Source
