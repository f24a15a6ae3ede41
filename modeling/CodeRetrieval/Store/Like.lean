/-!
Patterns of the LIKE operator: `%` stands for any text, `_` for any character, and a character after
a backslash for itself. Letters of ASCII match in either case, all others only themselves.
-/

set_option autoImplicit false

namespace CodeRetrieval.Like

inductive Piece where
  | anyText
  | anyChar
  | char (c : Char)
  /-- What an escape at the very end asks for: nothing matches it. -/
  | never
  deriving DecidableEq, Repr

def pieces : List Char → List Piece
  | [] => []
  | '\\' :: c :: rest => .char c :: pieces rest
  | ['\\'] => [.never]
  | '%' :: rest => .anyText :: pieces rest
  | '_' :: rest => .anyChar :: pieces rest
  | c :: rest => .char c :: pieces rest

def fold (c : Char) : Char := if c.toNat < 128 then c.toLower else c

def someEnd (p : List Char → Bool) : List Char → Bool
  | [] => p []
  | c :: s => p (c :: s) || someEnd p s

def accepts : List Piece → List Char → Bool
  | [], s => s.isEmpty
  | .anyText :: ps, s => someEnd (accepts ps) s
  | .anyChar :: ps, s =>
    match s with
    | [] => false
    | _ :: rest => accepts ps rest
  | .char c :: ps, s =>
    match s with
    | [] => false
    | d :: rest => fold c == fold d && accepts ps rest
  | .never :: _, _ => false

def like (text pattern : String) : Bool := accepts (pieces pattern.toList) text.toList

def escapeChar (c : Char) : List Char :=
  if c = '\\' ∨ c = '%' ∨ c = '_' then ['\\', c] else [c]

/-- A pattern that asks for the text itself. -/
def escape (text : String) : String := String.ofList (text.toList.flatMap escapeChar)

end CodeRetrieval.Like
