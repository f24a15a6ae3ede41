import CodeRetrieval.Decimal.Shortest
import CodeRetrieval.Json.Value

/-!
JSON text, on one line or one item a line. Doubles are written with the fewest digits that read
back: without an exponent from `1e-5` up to `1e16`, with one elsewhere.
-/

set_option autoImplicit false

namespace CodeRetrieval.Json

def hexDigit (n : Nat) : Char := if n < 10 then Char.ofNat (48 + n) else Char.ofNat (87 + n)

def escape (c : Char) : List Char :=
  if c = '"' then ['\\', '"']
  else if c = '\\' then ['\\', '\\']
  else if c = '\n' then ['\\', 'n']
  else if c = '\r' then ['\\', 'r']
  else if c = '\t' then ['\\', 't']
  else if c = '\x08' then ['\\', 'b']
  else if c = '\x0c' then ['\\', 'f']
  else if c.toNat < 0x20 then
    ['\\', 'u', '0', '0', hexDigit (c.toNat / 16), hexDigit (c.toNat % 16)]
  else [c]

def quoteChars (s : List Char) : List Char := '"' :: s.flatMap escape ++ ['"']

def quote (s : String) : List Char := quoteChars s.toList

def finiteText (b : Decimal.Binary) : List Char :=
  let (d, k) := b.shortest
  let point : Int := k + (Decimal.digits d).length
  let body :=
    if d = 0 then ['0', '.', '0']
    else if -5 < point ∧ point ≤ 16 then Decimal.positional d k ['.', '0']
    else Decimal.scientific d k
  if b.negative then '-' :: body else body

def partsText : Decimal.Parts → List Char
  | .finite b => finiteText b
  | _ => ['n', 'u', 'l', 'l']

def Number.text : Number → List Char
  | .whole n => (toString n).toList
  | .double bits => partsText (Decimal.Parts.ofPattern 11 52 bits.toNat)

def scalarText : Json → List Char
  | .null => ['n', 'u', 'l', 'l']
  | .bool true => ['t', 'r', 'u', 'e']
  | .bool false => ['f', 'a', 'l', 's', 'e']
  | .num n => n.text
  | .str s => quote s
  | .arr _ => ['[', ']']
  | .obj _ => ['{', '}']

def between (sep : List Char) : List (List Char) → List Char
  | [] => []
  | [x] => x
  | x :: y :: rest => x ++ sep ++ between sep (y :: rest)

mutual

def compactChars : Json → List Char
  | .arr xs => '[' :: between [','] (compactItems xs) ++ [']']
  | .obj fs => '{' :: between [','] (compactFields fs) ++ ['}']
  | v => scalarText v

def compactItems : List Json → List (List Char)
  | [] => []
  | x :: rest => compactChars x :: compactItems rest

def compactFields : List (String × Json) → List (List Char)
  | [] => []
  | (k, v) :: rest => (quote k ++ ':' :: compactChars v) :: compactFields rest

end

def indentOf (depth : Nat) : List Char := List.replicate (2 * depth) ' '

def blockText (opening closing : Char) (depth : Nat) (items : List (List Char)) : List Char :=
  let gap := '\n' :: indentOf (depth + 1)
  opening :: gap ++ between (',' :: gap) items ++ '\n' :: indentOf depth ++ [closing]

mutual

def prettyChars (depth : Nat) : Json → List Char
  | .arr (x :: xs) => blockText '[' ']' depth (prettyItems (depth + 1) (x :: xs))
  | .obj (f :: fs) => blockText '{' '}' depth (prettyFields (depth + 1) (f :: fs))
  | v => scalarText v

def prettyItems (depth : Nat) : List Json → List (List Char)
  | [] => []
  | x :: rest => prettyChars depth x :: prettyItems depth rest

def prettyFields (depth : Nat) : List (String × Json) → List (List Char)
  | [] => []
  | (k, v) :: rest => (quote k ++ ':' :: ' ' :: prettyChars depth v) :: prettyFields depth rest

end

def compact (v : Json) : String := String.ofList (compactChars v)

def pretty (v : Json) : String := String.ofList (prettyChars 0 v)

end CodeRetrieval.Json
