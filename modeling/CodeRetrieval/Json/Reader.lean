import CodeRetrieval.Json.Value

/-!
Reading JSON. A text is one value with blanks around it; arrays and objects nest at most 127 deep.
A reader takes characters from the front and returns what it read with the rest.
-/

set_option autoImplicit false

namespace CodeRetrieval.Json

abbrev Reader (α : Type) := List Char → Option (α × List Char)

def isSpace (c : Char) : Bool := c == ' ' || c == '\n' || c == '\t' || c == '\r'

def skipSpace (s : List Char) : List Char := s.dropWhile isSpace

def hexValue (c : Char) : Option Nat :=
  if c.isDigit then some (c.toNat - 48)
  else if 'a' ≤ c ∧ c ≤ 'f' then some (c.toNat - 87)
  else if 'A' ≤ c ∧ c ≤ 'F' then some (c.toNat - 55)
  else none

def readHex4 : Reader Nat
  | a :: b :: c :: d :: rest => do
    let a ← hexValue a
    let b ← hexValue b
    let c ← hexValue c
    let d ← hexValue d
    some (((a * 16 + b) * 16 + c) * 16 + d, rest)
  | _ => none

/-- The character behind an escape of four digits. A high surrogate needs a low one after it. -/
def readEscapedUnit (s : List Char) : Option (Char × List Char) := do
  let (n, rest) ← readHex4 s
  if n < 0xd800 ∨ 0xdfff < n then some (Char.ofNat n, rest)
  else if 0xdc00 ≤ n then none
  else
    match rest with
    | '\\' :: 'u' :: more => do
      let (m, rest) ← readHex4 more
      if 0xdc00 ≤ m ∧ m ≤ 0xdfff then
        some (Char.ofNat (0x10000 + (n - 0xd800) * 0x400 + (m - 0xdc00)), rest)
      else none
    | _ => none

def escapedChar : Char → Option Char
  | '"' => some '"'
  | '\\' => some '\\'
  | '/' => some '/'
  | 'b' => some '\x08'
  | 'f' => some '\x0c'
  | 'n' => some '\n'
  | 'r' => some '\r'
  | 't' => some '\t'
  | _ => none

def readStringBody : Nat → Reader (List Char)
  | 0, _ => none
  | _ + 1, [] => none
  | fuel + 1, c :: s =>
    if c = '"' then some ([], s)
    else if c = '\\' then
      match s with
      | 'u' :: more => do
        let (d, rest) ← readEscapedUnit more
        let (ds, rest) ← readStringBody fuel rest
        some (d :: ds, rest)
      | e :: more => do
        let d ← escapedChar e
        let (ds, rest) ← readStringBody fuel more
        some (d :: ds, rest)
      | [] => none
    else if c.toNat < 0x20 then none
    else do
      let (ds, rest) ← readStringBody fuel s
      some (c :: ds, rest)

def readString (s : List Char) : Option (String × List Char) :=
  (readStringBody (s.length + 1) s).map fun (cs, rest) => (String.ofList cs, rest)

def digitValue (c : Char) : Nat := c.toNat - 48

def maxSignificand : Nat := UInt64.size - 1

/-- Adds digits to a significand as long as it fits 64 bits: the significand, how many digits were
added, and the rest. -/
def takeDigits (significand : Nat) : List Char → Nat × Nat × List Char
  | [] => (significand, 0, [])
  | c :: s =>
    if c.isDigit ∧ significand * 10 + digitValue c ≤ maxSignificand then
      let (n, k, rest) := takeDigits (significand * 10 + digitValue c) s
      (n, k + 1, rest)
    else (significand, 0, c :: s)

/-- `significand * 10 ^ exponent` as a double: one multiplication or division by a power of ten up
to `10 ^ 308`, after as many divisions by `10 ^ 308` as needed. Too large a number is refused. -/
def scaleBy : Nat → Float → Int → Option Float
  | 0, f, _ => some f
  | fuel + 1, f, e =>
    if e.natAbs ≤ 308 then
      if 0 ≤ e then
        let scaled := f * Float.ofScientific 1 false e.natAbs
        if scaled.isInf then none else some scaled
      else some (f / Float.ofScientific 1 false e.natAbs)
    else if f == 0 then some f
    else if 0 ≤ e then none
    else scaleBy fuel (f / Float.ofScientific 1 false 308) (e + 308)

def makeDouble (negative : Bool) (significand : Nat) (exponent : Int) : Option Number := do
  let f ← scaleBy 8 (UInt64.ofNat significand).toFloat exponent
  some (.double (if negative then -f else f).toBits)

def clampExponent (e : Int) : Int := max (-2147483648) (min 2147483647 e)

def readExponent (negative : Bool) (significand : Nat) (start : Int) : Reader Number := fun s =>
  let (down, s) := match s with
    | '+' :: s => (false, s)
    | '-' :: s => (true, s)
    | s => (false, s)
  let ds := s.takeWhile Char.isDigit
  let rest := s.dropWhile Char.isDigit
  if ds.isEmpty then none
  else
    let e := ds.foldl (fun n c => n * 10 + digitValue c) 0
    if 2147483647 < e then
      if significand ≠ 0 ∧ !down then none
      else some (.double (if negative then (-0.0 : Float) else 0.0).toBits, rest)
    else
      (makeDouble negative significand
        (clampExponent (if down then start - e else start + e))).map (·, rest)

def finishDouble (negative : Bool) (significand : Nat) (exponent : Int) : Reader Number
  | 'e' :: s => readExponent negative significand exponent s
  | 'E' :: s => readExponent negative significand exponent s
  | s => (makeDouble negative significand exponent).map (·, s)

/-- The digits after the point. Those that no longer fit the significand are passed over. -/
def readFraction (negative : Bool) (significand : Nat) (exponent : Int) : Reader Number := fun s =>
  let (n, k, rest) := takeDigits significand s
  let more := rest.dropWhile Char.isDigit
  if k = 0 ∧ more.length = rest.length then none
  else if k = 0 then finishDouble negative n exponent more
  else finishDouble negative n (exponent - k) more

def afterWhole (negative : Bool) (significand : Nat) (dropped : Nat) : Reader Number
  | '.' :: s => readFraction negative significand dropped s
  | 'e' :: s => readExponent negative significand dropped s
  | 'E' :: s => readExponent negative significand dropped s
  | s =>
    if 0 < dropped then (makeDouble negative significand dropped).map (·, s)
    else if !negative then some (.whole significand, s)
    else if significand = 0 ∨ UInt64.size / 2 < significand then
      some (.double (-(UInt64.ofNat significand).toFloat).toBits, s)
    else some (.whole (-significand), s)

def readUnsigned (negative : Bool) : Reader Number
  | [] => none
  | c :: s =>
    if c = '0' then
      match s with
      | d :: _ => if d.isDigit then none else afterWhole negative 0 0 s
      | [] => afterWhole negative 0 0 s
    else if c.isDigit then
      let (n, _, rest) := takeDigits (digitValue c) s
      let more := rest.dropWhile Char.isDigit
      afterWhole negative n (rest.length - more.length) more
    else none

def readNumber : Reader Number
  | '-' :: s => readUnsigned true s
  | s => readUnsigned false s

def readItems {α : Type} (item : Reader α) (close : Char) : Nat → Reader (List α)
  | 0, _ => none
  | fuel + 1, s => do
    let (x, s) ← item (skipSpace s)
    match skipSpace s with
    | ',' :: s => do
      let (xs, s) ← readItems item close fuel s
      some (x :: xs, s)
    | c :: s => if c = close then some ([x], s) else none
    | [] => none

def readList {α : Type} (item : Reader α) (close : Char) : Reader (List α) := fun s =>
  match skipSpace s with
  | [] => none
  | c :: rest => if c = close then some ([], rest) else readItems item close (s.length + 1) s

def readField {α : Type} (value : Reader α) : Reader (String × α)
  | '"' :: s => do
    let (name, s) ← readString s
    match skipSpace s with
    | ':' :: s => do
      let (v, s) ← value (skipSpace s)
      some ((name, v), s)
    | _ => none
  | _ => none

def readWord {α : Type} (word : List Char) (v : α) (s : List Char) : Option (α × List Char) :=
  if s.take word.length = word then some (v, s.drop word.length) else none

def readValue : Nat → Reader Json
  | 0, _ => none
  | _ + 1, [] => none
  | depth + 1, c :: s =>
    if c = '{' then
      if depth = 0 then none
      else (readList (readField (readValue depth)) '}' s).map fun (fs, rest) =>
        (ofFields fs, rest)
    else if c = '[' then
      if depth = 0 then none
      else (readList (readValue depth) ']' s).map fun (xs, rest) => (.arr xs, rest)
    else if c = '"' then (readString s).map fun (t, rest) => (.str t, rest)
    else if c = 't' then readWord ['r', 'u', 'e'] (.bool true) s
    else if c = 'f' then readWord ['a', 'l', 's', 'e'] (.bool false) s
    else if c = 'n' then readWord ['u', 'l', 'l'] .null s
    else (readNumber (c :: s)).map fun (n, rest) => (.num n, rest)

def maxDepth : Nat := 128

def parse? (text : String) : Option Json :=
  match readValue maxDepth (skipSpace text.toList) with
  | some (v, rest) => if (skipSpace rest).isEmpty then some v else none
  | none => none

end CodeRetrieval.Json
