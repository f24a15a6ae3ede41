import CodeRetrieval.Decimal.Shortest
import CodeRetrieval.Toml.Value

/-!
TOML text. Strings take the plainest quotes that need no escapes, where there are such; tables stand
under headers unless an array mixes them with other values.
-/

set_option autoImplicit false

namespace CodeRetrieval.Toml

def longestRun (q : Char) (s : List Char) : Nat :=
  (s.foldl (fun (run, best) c =>
    let run := if c = q then run + 1 else 0
    (run, max run best)) ((0, 0) : Nat × Nat)).2

def isControl (c : Char) : Bool :=
  (c.toNat < 0x20 && c != '\t' && c != '\n') || c.toNat == 0x7f

def upperHex (n : Nat) : Char := if n < 10 then Char.ofNat (48 + n) else Char.ofNat (55 + n)

/-- Escapes for a string in double quotes; a long one may hold line feeds, and up to `allowed`
quotes in a row. -/
def escapeAll (long : Bool) (allowed : Nat) : Nat → List Char → List Char
  | _, [] => []
  | quotes, c :: s =>
    if c = '"' then
      if quotes < allowed then '"' :: escapeAll long allowed (quotes + 1) s
      else '\\' :: '"' :: escapeAll long allowed 0 s
    else
      let here :=
        if c = '\x08' then ['\\', 'b']
        else if c = '\t' then ['\\', 't']
        else if c = '\n' then if long then ['\n'] else ['\\', 'n']
        else if c = '\x0c' then ['\\', 'f']
        else if c = '\r' then ['\\', 'r']
        else if c = '\\' then ['\\', '\\']
        else if c.toNat < 0x20 ∨ c.toNat = 0x7f then
          ['\\', 'u', '0', '0', upperHex (c.toNat / 16), upperHex (c.toNat % 16)]
        else [c]
      here ++ escapeAll long allowed 0 s

def inBasic (s : List Char) : List Char := '"' :: escapeAll false 0 0 s ++ ['"']

def inLongBasic (s : List Char) : List Char :=
  ['"', '"', '"'] ++ (if s.contains '\n' then ['\n'] else []) ++ escapeAll true 2 0 s ++
    ['"', '"', '"']

def inLiteral (s : List Char) : List Char := '\'' :: s ++ ['\'']

def inLongLiteral (s : List Char) : List Char :=
  ['\'', '\'', '\''] ++ (if s.contains '\n' then ['\n'] else []) ++ s ++ ['\'', '\'', '\'']

def stringText (s : List Char) : List Char :=
  let control := s.any isControl
  let backslash := s.contains '\\'
  let doubles := longestRun '"' s
  let singles := longestRun '\'' s
  let lines := s.contains '\n'
  if !control && !backslash && doubles == 0 && !lines then inBasic s
  else if !control && singles == 0 && !lines then inLiteral s
  else if !control && !backslash && doubles ≤ 2 then inLongBasic s
  else if !control && singles ≤ 2 then inLongLiteral s
  else if lines then inLongBasic s
  else inBasic s

def isBare (c : Char) : Bool := c.isAlphanum || c == '_' || c == '-'

def keyText (key : String) : List Char :=
  let s := key.toList
  let control := s.any isControl || s.contains '\n'
  if !s.isEmpty && s.all isBare then s
  else if !control && !s.contains '\\' && !s.contains '"' then inBasic s
  else if !control && !s.contains '\'' then inLiteral s
  else inBasic s

def floatText (bits : UInt64) : List Char :=
  match Decimal.Parts.ofPattern 11 52 bits.toNat with
  | .nan => ['n', 'a', 'n']
  | .infinite negative => (if negative then ['-'] else []) ++ ['i', 'n', 'f']
  | .finite b =>
    let (d, k) := b.shortest
    (if b.negative then ['-'] else []) ++ Decimal.positional d k ['.', '0']

def commas : List (List Char) → List Char
  | [] => []
  | [x] => x
  | x :: y :: rest => x ++ [',', ' '] ++ commas (y :: rest)

/-- Entries in the order in which they are written: values, then arrays with tables, then tables. -/
def writeOrder {α : Type} (value : α → Toml) (entries : List α) : List α :=
  entries.filter (fun e => !(value e).isTable && !(value e).holdsTable) ++
    entries.filter (fun e => (value e).holdsTable) ++
    entries.filter (fun e => (value e).isTable)

mutual

def valueChars : Toml → List Char
  | .str s => stringText s.toList
  | .int n => (toString n).toList
  | .float bits => floatText bits
  | .bool true => ['t', 'r', 'u', 'e']
  | .bool false => ['f', 'a', 'l', 's', 'e']
  | .datetime text => text.toList
  | .arr items => '[' :: commas (itemTexts items) ++ [']']
  | .table [] => ['\x7b', '\x7d']
  | .table (e :: es) =>
    ['\x7b', ' '] ++ commas ((writeOrder (·.1) (entryTexts (e :: es))).map (·.2)) ++ [' ', '\x7d']

def itemTexts : List Toml → List (List Char)
  | [] => []
  | v :: rest => valueChars v :: itemTexts rest

def entryTexts : List (String × Toml) → List (Toml × List Char)
  | [] => []
  | (k, v) :: rest => (v, keyText k ++ [' ', '=', ' '] ++ valueChars v) :: entryTexts rest

end

def isTableArray : Toml → Bool
  | .arr items => !items.isEmpty && items.all isTable
  | _ => false

def headerText (path : List String) (element : Bool) : List Char :=
  let keys := ('.' :: []).intercalate (path.map keyText)
  if element then ['[', '['] ++ keys ++ [']', ']'] else '[' :: keys ++ [']']

def ownLines (entries : List (String × Toml)) : List (List Char) :=
  (writeOrder (·.2) (entries.filter fun e => !e.2.isTable && !isTableArray e.2)).map fun (k, v) =>
    keyText k ++ [' ', '=', ' '] ++ valueChars v

structure Block where
  header : Option (List Char)
  body : List (List Char)

/-- A table with a header. A header that leads to nothing but other tables does not show. -/
def blockOf (path : List String) (element : Bool) (entries : List (String × Toml)) : Block :=
  let body := ownLines entries
  let shows := element || entries.isEmpty || !body.isEmpty
  ⟨if shows then some (headerText path element) else none, body⟩

def gather (parts : List (Toml × List Block)) : List Block :=
  (writeOrder (·.1) parts).flatMap (·.2)

mutual

def blocks (path : List String) : Toml → List Block
  | .table entries => blockOf path false entries :: gather (entryBlocks path entries)
  | .arr items => if isTableArray (.arr items) then elementBlocks path items else []
  | _ => []

def entryBlocks (path : List String) : List (String × Toml) → List (Toml × List Block)
  | [] => []
  | (k, v) :: rest => (v, blocks (path ++ [k]) v) :: entryBlocks path rest

def elementBlocks (path : List String) : List Toml → List Block
  | [] => []
  | .table entries :: rest =>
    blockOf path true entries :: (gather (entryBlocks path entries) ++ elementBlocks path rest)
  | _ :: rest => elementBlocks path rest

end

def blockText (first : Bool) (b : Block) : List Char :=
  (match b.header with
    | some h => (if first then [] else ['\n']) ++ h ++ ['\n']
    | none => []) ++ b.body.flatMap (· ++ ['\n'])

def writeBlocks (first : Bool) : List Block → List Char
  | [] => []
  | b :: rest =>
    let shows := b.header.isSome || !b.body.isEmpty
    blockText first b ++ writeBlocks (first && !shows) rest

def print (entries : List (String × Toml)) : String :=
  String.ofList (writeBlocks true (⟨none, ownLines entries⟩ :: gather (entryBlocks [] entries)))

def printEntry (key : String) (v : Toml) : String := print [(key, v)]

end CodeRetrieval.Toml
