import CodeRetrieval.Json.Printer
import CodeRetrieval.Text.Basic

/-!
Addresses of services. An address for the web is written in one way only: scheme and host in small
letters, no number behind the host that goes without saying, a path without dot names, and
characters that are not allowed by their bytes in hexadecimal.
-/

set_option autoImplicit false

namespace CodeRetrieval

inductive Address where
  | web (origin path : String)
  | other (text : String)
  deriving DecidableEq, Repr

namespace Address

def isAlpha (c : Char) : Bool := c.isAlpha

def isSchemeChar (c : Char) : Bool := c.isAlphanum || c == '+' || c == '-' || c == '.'

def scheme? (s : List Char) : Option (String × List Char) :=
  match s with
  | [] => none
  | c :: _ =>
    let name := s.takeWhile isSchemeChar
    match s.dropWhile isSchemeChar with
    | ':' :: rest =>
      if isAlpha c then some (String.ofList (name.map Char.toLower), rest) else none
    | _ => none

def percent (b : UInt8) : List Char :=
  ['%', (Json.hexDigit (b.toNat / 16)).toUpper, (Json.hexDigit (b.toNat % 16)).toUpper]

def encode (also : List Char) (c : Char) : List Char :=
  if c.toNat ≤ 0x20 || 0x7e < c.toNat || also.contains c then
    (String.utf8EncodeChar c).flatMap percent
  else [c]

def isSlash (c : Char) : Bool := c == '/' || c == '\\'

/-- Names of a path, the latest first, without dot names. A dot name at the end leaves an empty
one. -/
def resolveDots : List (List Char) → List (List Char) → List (List Char)
  | done, [] => done
  | done, name :: rest =>
    let last := rest.isEmpty
    if name = ['.'] then resolveDots (if last then [] :: done else done) rest
    else if name = ['.', '.'] then
      resolveDots (if last then [] :: done.drop 1 else done.drop 1) rest
    else resolveDots (name :: done) rest

def pathText (s : List Char) : List Char :=
  let names := Text.Chars.splitBy isSlash (if s.head?.any isSlash then s.drop 1 else s)
  (resolveDots [] names).reverse.flatMap fun name =>
    '/' :: name.flatMap (encode ['"', '<', '>', '^', '{', '}', Char.ofNat 96])

/-- The number behind a host, with its colon: nothing for an empty one and for the scheme's own. -/
def portText? (scheme : String) : List Char → Option (List Char)
  | [] => some []
  | ':' :: digits =>
    if digits.all Char.isDigit then
      let n := digits.foldl (fun acc d => 10 * acc + (d.toNat - 48)) 0
      if 65535 < n then none
      else if digits.isEmpty || n = (if scheme == "http" then 80 else 443) then some []
      else some (':' :: (toString n).toList)
    else none
  | _ => none

def isForbiddenInHost (c : Char) : Bool :=
  c.toNat ≤ 0x20 || c.toNat == 0x7f || ['#', '%', '/', ':', '<', '>', '?', '@', '[', '\\', ']',
    '^', '|'].contains c

def host? (s : List Char) : Option (List Char × List Char) :=
  match s with
  | '[' :: inner =>
    match inner.dropWhile (· != ']') with
    | _ :: rest => some ('[' :: (inner.takeWhile (· != ']')).map Char.toLower ++ [']'], rest)
    | [] => none
  | _ =>
    let name := s.takeWhile (· != ':')
    if name.isEmpty || name.any isForbiddenInHost then none
    else some (name.map Char.toLower, s.dropWhile (· != ':'))

def web? (scheme : String) (s : List Char) : Option Address := do
  let s := s.dropWhile isSlash
  let isEnd := fun c => isSlash c || c == '?' || c == '#'
  let authority := s.takeWhile (!isEnd ·)
  let rest := s.dropWhile (!isEnd ·)
  let (host, after) ← host? (authority.reverse.takeWhile (· != '@')).reverse
  let number ← portText? scheme after
  let path := rest.takeWhile fun c => c != '?' && c != '#'
  let query := (rest.dropWhile fun c => c != '?' && c != '#').takeWhile (· != '#')
  let fragment := rest.dropWhile (· != '#')
  return .web (scheme ++ "://" ++ String.ofList (host ++ number))
    (String.ofList (pathText path ++ query.flatMap (encode ['"', '<', '>', '\'']) ++
      fragment.flatMap (encode ['"', '<', '>', Char.ofNat 96])))

def parse? (text : String) : Option Address :=
  let isBlankEnd := fun c : Char => c.toNat ≤ 0x20
  let s := ((text.toList.dropWhile isBlankEnd).reverse.dropWhile isBlankEnd).reverse
  let s := s.filter fun c => c ∉ ['\t', '\n', '\r']
  match scheme? s with
  | none => none
  | some (scheme, rest) =>
    if scheme == "http" || scheme == "https" then web? scheme rest
    else some (.other (scheme ++ ":" ++ String.ofList rest))

def text : Address → String
  | web origin path => origin ++ path
  | other t => t

end Address

end CodeRetrieval
