import CodeRetrieval.Json.Reader
import CodeRetrieval.Toml.Value

set_option autoImplicit false

namespace CodeRetrieval.Toml

open Json (Reader)

def isSpace (c : Char) : Bool := c == ' ' || c == '\t'

def skipSpace (s : List Char) : List Char := s.dropWhile isSpace

def newline? : List Char → Option (List Char)
  | '\n' :: s => some s
  | '\r' :: '\n' :: s => some s
  | _ => none

def isPlain (c : Char) : Bool := c == '\t' || (0x20 ≤ c.toNat && c.toNat ≠ 0x7f)

def skipComment : List Char → List Char
  | '#' :: s => s.dropWhile isPlain
  | s => s

def isBareKeyChar (c : Char) : Bool := c.isAlphanum || c == '_' || c == '-'

def isLiteralChar (c : Char) : Bool := isPlain c && c != '\''

def isBasicChar (c : Char) : Bool := isPlain c && c != '"' && c != '\\'

def readHex : Nat → Nat → Reader Nat
  | 0, acc, s => some (acc, s)
  | _ + 1, _, [] => none
  | n + 1, acc, c :: s => do readHex n (acc * 16 + (← Json.hexValue c)) s

def scalarChar (n : Nat) : Option Char :=
  if n < 0xd800 ∨ (0xdfff < n ∧ n ≤ 0x10ffff) then some (Char.ofNat n) else none

def readEscape : Reader Char
  | 'b' :: s => some ('\x08', s)
  | 'f' :: s => some ('\x0c', s)
  | 'n' :: s => some ('\n', s)
  | 'r' :: s => some ('\r', s)
  | 't' :: s => some ('\t', s)
  | '"' :: s => some ('"', s)
  | '\\' :: s => some ('\\', s)
  | 'u' :: s => do
    let (n, s) ← readHex 4 0 s
    some (← scalarChar n, s)
  | 'U' :: s => do
    let (n, s) ← readHex 8 0 s
    some (← scalarChar n, s)
  | _ => none

def readBasic : Nat → Reader (List Char)
  | 0, _ => none
  | _ + 1, [] => none
  | fuel + 1, c :: s =>
    if c = '"' then some ([], s)
    else if c = '\\' then do
      let (d, s) ← readEscape s
      let (ds, s) ← readBasic fuel s
      some (d :: ds, s)
    else if isBasicChar c then do
      let (ds, s) ← readBasic fuel s
      some (c :: ds, s)
    else none

def readLiteral (s : List Char) : Option (List Char × List Char) :=
  match s.dropWhile isLiteralChar with
  | '\'' :: rest => some (s.takeWhile isLiteralChar, rest)
  | _ => none

def endsLine (s : List Char) : Bool := (newline? (skipSpace s)).isSome

def skipLines : Nat → List Char → List Char
  | 0, s => s
  | fuel + 1, s =>
    match skipSpace s with
    | '\n' :: rest => skipLines fuel rest
    | '\r' :: '\n' :: rest => skipLines fuel rest
    | rest => rest

/-- Up to two quotes may stand directly before the three that close a long string. -/
def closing (quote : Char) (s : List Char) : Option (List Char × List Char) :=
  let quotes := (s.takeWhile (· == quote)).length
  if quotes < 3 then none
  else
    let extra := min (quotes - 3) 2
    some (List.replicate extra quote, s.drop (extra + 3))

def readLongBasic : Nat → Reader (List Char)
  | 0, _ => none
  | _ + 1, [] => none
  | fuel + 1, c :: s =>
    if c = '"' then
      match closing '"' (c :: s) with
      | some r => some r
      | none => do
        let (ds, s) ← readLongBasic fuel s
        some (c :: ds, s)
    else if c = '\\' then
      if endsLine s then readLongBasic fuel (skipLines fuel s)
      else do
        let (d, s) ← readEscape s
        let (ds, s) ← readLongBasic fuel s
        some (d :: ds, s)
    else
      match newline? (c :: s) with
      | some s => do
        let (ds, s) ← readLongBasic fuel s
        some ('\n' :: ds, s)
      | none =>
        if isBasicChar c then do
          let (ds, s) ← readLongBasic fuel s
          some (c :: ds, s)
        else none

def readLongLiteral : Nat → Reader (List Char)
  | 0, _ => none
  | _ + 1, [] => none
  | fuel + 1, c :: s =>
    if c = '\'' then
      match closing '\'' (c :: s) with
      | some r => some r
      | none => do
        let (ds, s) ← readLongLiteral fuel s
        some (c :: ds, s)
    else
      match newline? (c :: s) with
      | some s => do
        let (ds, s) ← readLongLiteral fuel s
        some ('\n' :: ds, s)
      | none =>
        if isLiteralChar c then do
          let (ds, s) ← readLongLiteral fuel s
          some (c :: ds, s)
        else none

/-- A line end directly after the opening quotes does not count. -/
def afterOpening (s : List Char) : List Char := (newline? s).getD s

def readString : Reader String := fun s =>
  let fuel := s.length + 1
  (match s with
    | '"' :: '"' :: '"' :: rest => readLongBasic fuel (afterOpening rest)
    | '"' :: rest => readBasic fuel rest
    | '\'' :: '\'' :: '\'' :: rest => readLongLiteral fuel (afterOpening rest)
    | '\'' :: rest => readLiteral rest
    | _ => none).map fun (cs, rest) => (String.ofList cs, rest)

def readSimpleKey : Reader String
  | '"' :: s => (readBasic (s.length + 1) s).map fun (cs, rest) => (String.ofList cs, rest)
  | '\'' :: s => (readLiteral s).map fun (cs, rest) => (String.ofList cs, rest)
  | s =>
    let key := s.takeWhile isBareKeyChar
    if key.isEmpty then none else some (String.ofList key, s.dropWhile isBareKeyChar)

def readKeyParts : Nat → Reader (List String)
  | 0, _ => none
  | fuel + 1, s => do
    let (k, s) ← readSimpleKey (skipSpace s)
    match skipSpace s with
    | '.' :: s => do
      let (ks, s) ← readKeyParts fuel s
      some (k :: ks, s)
    | s => some ([k], s)

def maxDepth : Nat := 80

def readKey : Reader (List String) := fun s => do
  let (ks, s) ← readKeyParts (s.length + 1) s
  if ks.length < maxDepth then some (ks, s) else none

def readDigits (isDigit : Char → Bool) : Nat → Reader (List Char)
  | 0, _ => none
  | _ + 1, [] => none
  | fuel + 1, c :: s =>
    if !isDigit c then none
    else
      match s with
      | '_' :: rest => do
        let (ds, s) ← readDigits isDigit fuel rest
        some (c :: ds, s)
      | d :: rest =>
        if isDigit d then do
          let (ds, s) ← readDigits isDigit fuel (d :: rest)
          some (c :: ds, s)
        else some ([c], s)
      | [] => some ([c], [])

def naturalOf (base : Nat) (ds : List Char) : Nat :=
  ds.foldl (fun n c => n * base + (Json.hexValue c).getD 0) 0

def signed64 (n : Int) : Option Toml :=
  if Int64.minValue.toInt ≤ n ∧ n ≤ Int64.maxValue.toInt then some (.int n) else none

def isHexDigit (c : Char) : Bool := (Json.hexValue c).isSome
def isOctDigit (c : Char) : Bool := '0' ≤ c && c ≤ '7'
def isBinDigit (c : Char) : Bool := c == '0' || c == '1'

def readRadix (base : Nat) (isDigit : Char → Bool) (s : List Char) : Option (Toml × List Char) := do
  let (ds, rest) ← readDigits isDigit (s.length + 1) s
  some (← signed64 (naturalOf base ds), rest)

def readSign : List Char → Bool × List Char
  | '-' :: s => (true, s)
  | '+' :: s => (false, s)
  | s => (false, s)

def doubleOf (negative : Bool) (d : Nat) (e : Int) : Option Toml :=
  let f :=
    if d = 0 then 0
    else if 400 < e + (Nat.toDigits 10 d).length then Float.ofScientific 1 false 400
    else if e + (Nat.toDigits 10 d).length < -400 then 0
    else Float.ofScientific d (e < 0) e.natAbs
  if f.isInf && !negative then none else some (.float (if negative then -f else f).toBits)

def readFraction : List Char → Option (Option (List Char) × List Char)
  | '.' :: s => (readDigits Char.isDigit (s.length + 1) s).map fun (ds, rest) => (some ds, rest)
  | s => some (none, s)

def readExponentDigits (s : List Char) : Option (Option Int × List Char) :=
  let (down, s) := readSign s
  (readDigits Char.isDigit (s.length + 1) s).map fun (ds, rest) =>
    let e : Int := naturalOf 10 ds
    (some (if down then -e else e), rest)

def readExponent : List Char → Option (Option Int × List Char)
  | 'e' :: s => readExponentDigits s
  | 'E' :: s => readExponentDigits s
  | s => some (none, s)

def readDecimal : Reader Toml := fun s => do
  let (negative, s) := readSign s
  let (ds, s) ← readDigits Char.isDigit (s.length + 1) s
  if ds.head? = some '0' ∧ 1 < ds.length then none
  else
    let (fraction, s) ← readFraction s
    let (exponent, s) ← readExponent s
    if fraction.isNone ∧ exponent.isNone then
      let n : Int := naturalOf 10 ds
      some (← signed64 (if negative then -n else n), s)
    else
      let part := fraction.getD []
      some (← doubleOf negative (naturalOf 10 (ds ++ part)) (exponent.getD 0 - part.length), s)

def readSpecial : Reader Toml := fun s =>
  let (negative, s) := readSign s
  match s with
  | 'i' :: 'n' :: 'f' :: s =>
    some (.float (if negative then 0xfff0000000000000 else 0x7ff0000000000000), s)
  | 'n' :: 'a' :: 'n' :: s =>
    some (.float (if negative then 0xfff8000000000000 else 0x7ff8000000000000), s)
  | _ => none

def fixedDigits (n : Nat) (s : List Char) : Option (Nat × List Char) :=
  let ds := s.take n
  if ds.length = n ∧ ds.all Char.isDigit then some (naturalOf 10 ds, s.drop n) else none

def daysIn (year month : Nat) : Nat :=
  if month = 2 then
    if year % 4 = 0 ∧ (year % 100 ≠ 0 ∨ year % 400 = 0) then 29 else 28
  else if month = 4 ∨ month = 6 ∨ month = 9 ∨ month = 11 then 30
  else 31

def padLeft (n : Nat) (x : Nat) : List Char :=
  let ds := Nat.toDigits 10 x
  List.replicate (n - ds.length) '0' ++ ds

def readDate : Reader (List Char) := fun s => do
  let (year, s) ← fixedDigits 4 s
  let '-' :: s := s | none
  let (month, s) ← fixedDigits 2 s
  let '-' :: s := s | none
  let (day, s) ← fixedDigits 2 s
  if 1 ≤ month ∧ month ≤ 12 ∧ 1 ≤ day ∧ day ≤ daysIn year month then
    some (padLeft 4 year ++ '-' :: padLeft 2 month ++ '-' :: padLeft 2 day, s)
  else none

def secondsPart (ds : List Char) : List Char :=
  let kept := ((ds.take 9).reverse.dropWhile (· == '0')).reverse
  if kept.isEmpty then [] else '.' :: kept

def readTime : Reader (List Char) := fun s => do
  let (hour, s) ← fixedDigits 2 s
  let ':' :: s := s | none
  let (minute, s) ← fixedDigits 2 s
  let ':' :: s := s | none
  let (second, s) ← fixedDigits 2 s
  if 23 < hour ∨ 59 < minute ∨ 60 < second then none
  else
    let time := padLeft 2 hour ++ ':' :: padLeft 2 minute ++ ':' :: padLeft 2 second
    match s with
    | '.' :: rest =>
      let ds := rest.takeWhile Char.isDigit
      if ds.isEmpty then some (time, s)
      else some (time ++ secondsPart ds, rest.dropWhile Char.isDigit)
    | _ => some (time, s)

def readOffsetDigits (sign : Char) (s : List Char) : Option (List Char × List Char) := do
  let (hour, s) ← fixedDigits 2 s
  let ':' :: s := s | none
  let (minute, s) ← fixedDigits 2 s
  if 23 < hour ∨ 59 < minute then none
  else
    let sign := if hour = 0 ∧ minute = 0 then '+' else sign
    some (sign :: padLeft 2 hour ++ ':' :: padLeft 2 minute, s)

def readOffset : List Char → Option (List Char × List Char)
  | 'Z' :: s => some (['Z'], s)
  | 'z' :: s => some (['Z'], s)
  | '+' :: s => readOffsetDigits '+' s
  | '-' :: s => readOffsetDigits '-' s
  | s => some ([], s)

def isTimeMark (c : Char) : Bool := c == 'T' || c == 't' || c == ' '

def readAfterDate (date : List Char) (s : List Char) : Option (List Char × List Char) :=
  match s with
  | [] => some (date, [])
  | c :: rest =>
    if !isTimeMark c then some (date, s)
    else
      match readTime rest with
      | none => if c == ' ' then some (date, s) else none
      | some (time, rest) => do
        let (offset, rest) ← readOffset rest
        some (date ++ 'T' :: time ++ offset, rest)

def readDateTime : Reader Toml := fun s =>
  (match readDate s with
    | some (date, rest) => readAfterDate date rest
    | none => readTime s).map fun (text, rest) => (.datetime (String.ofList text), rest)

def readNumber : Reader Toml
  | '0' :: 'x' :: s => readRadix 16 isHexDigit s
  | '0' :: 'o' :: s => readRadix 8 isOctDigit s
  | '0' :: 'b' :: s => readRadix 2 isBinDigit s
  | s => (readSpecial s).orElse fun _ => readDecimal s

/-- Whether the text starts like a date or a time: with digits and then a dash or a colon. -/
def looksLikeTime (s : List Char) : Bool :=
  let ds := s.takeWhile Char.isDigit
  match s.dropWhile Char.isDigit with
  | '-' :: _ => ds.length == 4
  | ':' :: _ => ds.length == 2
  | _ => false

def readScalar : Reader Toml := fun s =>
  match s with
  | '"' :: _ => (readString s).map fun (t, rest) => (.str t, rest)
  | '\'' :: _ => (readString s).map fun (t, rest) => (.str t, rest)
  | 't' :: rest => Json.readWord ['r', 'u', 'e'] (.bool true) rest
  | 'f' :: rest => Json.readWord ['a', 'l', 's', 'e'] (.bool false) rest
  | _ => if looksLikeTime s then readDateTime s else readNumber s

end CodeRetrieval.Toml
