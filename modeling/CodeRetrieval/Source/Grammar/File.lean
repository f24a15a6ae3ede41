import CodeRetrieval.Source.Grammar.Body

/-!
Reading a whole Java file: its package, its imports and its types. What else may stand in a file is
skipped. A file in which something is missing is read as far as it can be understood.
-/

set_option autoImplicit false

namespace CodeRetrieval.Source.Grammar

open Parse

inductive Part where
  | package (name : String)
  | imported (name : String)
  | entity (e : Entity)
  | other

namespace Part

def package? : Part → Option String
  | package name => some name
  | _ => none

def imported? : Part → Option String
  | imported name => some name
  | _ => none

def entity? : Part → Option Entity
  | entity e => some e
  | _ => none

end Part

def statementText (keyword text : String) : String :=
  let s := Text.trim text
  Text.trim (Text.dropTails ";" (Text.trim ((Text.afterLead? s keyword).getD s)))

def importedName (text : String) : String :=
  let s := statementText "import" text
  let s := ((Text.afterLead? s "static").map Text.trim).getD s
  String.ofList (s.toList.filter (!Text.isBlank ·))

def part (source : List Char) (depth : Nat) (documentation : Option String) : Parse Part := do
  let o ← opening source documentation
  let whole (p : Parse Unit) : Parse String := do
    p
    return between source o.first.start.offset (← get).last.stop.offset
  match ← declaredKind? with
  | some kind => return .entity (← Parse.entity source depth "" o kind)
  | none =>
    if ← next "package" then return .package (statementText "package" (← whole statement))
    else if ← next "import" then return .imported (importedName (← whole statement))
    else
      statement
      return .other

/-- Reads the parts of a file, at most `n` tokens or parts. `comment` is the last comment since the
last part. -/
def partsWithin (source : List Char) (depth : Nat) : Nat → Option Token → Parse (List Part)
  | 0, _ => pure []
  | n + 1, comment => do
    match ← opt Parse.comment with
    | some t => partsWithin source depth n (some t)
    | none =>
      match ← peek with
      | none => return []
      | some t =>
        if t.is ";" then do
          advance
          partsWithin source depth n comment
        else if t.closes then do
          fault
          advance
          partsWithin source depth n none
        else
          match ← opt (part source depth (docOf comment)) with
          | some p => return p :: (← partsWithin source depth n none)
          | none => do
            advance
            _ ← opt statement
            fun c => some ((), { c with faults := c.faults + 1 })
            partsWithin source depth n none

def parts (text : String) : List Part × Nat :=
  let source := text.toList
  let ts := tokens source
  let start : Cursor := ⟨ts, ⟨.symbol, "", .start, .start⟩, 0⟩
  match partsWithin source ts.length (ts.length + 1) none start with
  | some (ps, c) => (ps, c.faults)
  | none => ([], 1)

/-- Reads a file by the grammar of the language. Bodies and initial values are passed over, so what
is wrong inside them is not noticed. -/
def read : Reader := fun path text =>
  let (ps, faults) := parts text
  let file : SourceFile := {
    path
    language := "java"
    package := (ps.filterMap Part.package?).getLast?
    imports := ps.filterMap Part.imported?
    entities := ps.filterMap Part.entity? }
  if file.entities.isEmpty then
    .failed (
      if faults = 0 then "no type declaration found"
      else s!"{faults} syntax error(s), no type declaration recovered")
  else if faults = 0 then .parsed file
  else .degraded file s!"{faults} syntax error(s)"

end CodeRetrieval.Source.Grammar
