import CodeRetrieval.Source.Declaration
import CodeRetrieval.Source.Grammar.Cursor

set_option autoImplicit false

namespace CodeRetrieval.Source.Parse

def name : Parse Unit := do
  _ ← word
  _ ← many (do expect "."; word)

def annotation : Parse Unit := do
  expect "@"
  name
  if ← next "(" then group

def typeSymbols : List String := [".", ",", "?", "&", "[", "]", "@"]

/-- What follows the angle bracket that closes the innermost of `depth + 1` open ones, after that
bracket itself. Only types, and annotations with what is inside their `parens` open parentheses, may
stand before it. -/
def afterAngles : Nat → Nat → List Token → Option (Token × List Token)
  | _, _, [] => none
  | depth, parens + 1, t :: rest =>
    if t.opens then afterAngles depth (parens + 2) rest
    else if t.closes then afterAngles depth parens rest
    else afterAngles depth (parens + 1) rest
  | depth, 0, t :: rest =>
    if t.is "<" then afterAngles (depth + 1) 0 rest
    else if t.is ">" then
      match depth with
      | 0 => some (t, rest)
      | d + 1 => afterAngles d 0 rest
    else if t.is "(" then afterAngles depth 1 rest
    else if t.isComment || t.isWord || typeSymbols.any t.is then afterAngles depth 0 rest
    else none

def typeArguments : Parse Unit := do
  expect "<"
  fun c => (afterAngles 0 0 c.ahead).map fun (t, rest) => ((), { c with ahead := rest, last := t })

def dimension : Parse Unit := do
  _ ← many annotation
  expect "["
  expect "]"

def dimensions : Parse Unit := discard (many dimension)

def type : Parse Unit := do
  _ ← word
  _ ← opt typeArguments
  _ ← many (do
    expect "."
    _ ← many annotation
    _ ← word
    opt typeArguments)
  dimensions

def annotatedType : Parse Unit := do
  _ ← many annotation
  type

def modifierWords : List String := [
  "public", "protected", "private", "abstract", "static", "final", "strictfp", "default",
  "synchronized", "native", "transient", "volatile", "sealed", "non-sealed"]

structure Modifiers where
  words : List Token
  annotations : List String

def modifier (source : List Char) : Parse (Token ⊕ String) := do
  if ← next "@" then return .inr (← textOf source annotation)
  else return .inl (← take fun t => modifierWords.any t.is)

def modifiers (source : List Char) : Parse Modifiers := do
  let all ← many (modifier source)
  return ⟨all.filterMap Sum.getLeft?, all.filterMap Sum.getRight?⟩

def Modifiers.texts (m : Modifiers) : List String := m.words.map (·.text)

/-- A comment directly ahead in place of a type, or else the type. -/
def typeOrComment (source : List Char) (p : Parse Unit) : Parse String := do
  match ← opt comment with
  | some t => do
    p
    return t.text
  | none => textOf source p

/-- The type of a parameter that may be repeated. A comment between modifiers and type is taken for
the type. -/
def repeatedType (source : List Char) (m : Modifiers) : Parse String := do
  let typeName ←
    if m.words.isEmpty && m.annotations.isEmpty then textOf source type
    else typeOrComment source type
  _ ← many annotation
  expect "..."
  return typeName ++ "..."

def param (source : List Char) : Parse (Option Param) := do
  let m ← modifiers source
  match ← opt (repeatedType source m) with
  | some typeName => do
    let t ← word
    dimensions
    return some ⟨typeName, t.text⟩
  | none => do
    let typeName ← textOf source type
    let t ← word
    if ← next "." then do
      _ ← many (do expect "."; word)
      return none
    else do
      dimensions
      return if t.is "this" then none else some ⟨typeName, t.text⟩

def params (source : List Char) : Parse (List Param) := do
  expect "("
  let first ← opt (param source)
  let more ← many (do expect ","; param source)
  expect ")"
  return (first.toList ++ more).filterMap id

def typeList (source : List Char) : Parse (List String) := do
  let first ← textOf source annotatedType
  let more ← many (do
    let before ← many comment
    expect ","
    let behind ← many comment
    let t ← textOf source annotatedType
    return (before ++ behind).map (·.text) ++ [t])
  return first :: more.flatten

/-- Reads an initial value, at most `n` tokens or groups of it: up to a comma that is not between
type arguments, or to the end of the declaration. -/
def valueWithin : Nat → Parse Unit
  | 0 => pure ()
  | n + 1 => do
    match ← peek with
    | none => pure ()
    | some t =>
      if t.is "," || t.is ";" || t.closes then pure ()
      else if t.opens then do group; valueWithin n
      else
        match ← opt typeArguments with
        | some _ => valueWithin n
        | none => do advance; valueWithin n

def declarator : Parse String := do
  let t ← word
  dimensions
  if ← next "=" then do
    expect "="
    fun c => valueWithin c.ahead.length c
  return t.text

def declarators : Parse (List String) := do
  let first ← declarator
  let more ← many (do expect ","; declarator)
  require ";"
  return first :: more

end CodeRetrieval.Source.Parse
