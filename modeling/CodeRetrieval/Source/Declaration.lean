import CodeRetrieval.Text.Basic

set_option autoImplicit false

namespace CodeRetrieval.Source

structure Field where
  name : String
  typeName : String
  modifiers : List String
  deriving DecidableEq, Repr

inductive MemberKind where
  | method
  | constructor
  deriving DecidableEq, Repr

def MemberKind.name : MemberKind → String
  | method => "method"
  | constructor => "constructor"

structure Param where
  typeName : String
  name : String
  deriving DecidableEq, Repr

/-- A method or a constructor; only a method has a return type. -/
structure Member where
  name : String
  kind : MemberKind
  returnType : Option String
  parameters : List Param
  modifiers : List String
  annotations : List String
  body : String
  documentation : Option String
  startLine : Nat
  endLine : Nat
  deriving DecidableEq, Repr

namespace Member

def signature (m : Member) : String :=
  Text.join " " (
    m.modifiers ++ m.returnType.toList ++
    [m.name ++ "(" ++ Text.join ", " (m.parameters.map fun p => p.typeName ++ " " ++ p.name) ++ ")"])

/-- The name with the parameter types, which tells overloads apart. -/
def idName (m : Member) : String :=
  m.name ++ "(" ++ Text.join "," (m.parameters.map (·.typeName)) ++ ")"

end Member

/-- A declared type without the types nested in it. -/
structure Declaration where
  name : String
  /-- The name after those of the enclosing types, with dots. -/
  qualifiedName : String
  kind : String
  modifiers : List String
  annotations : List String
  superclass : Option String
  interfaces : List String
  fields : List Field
  members : List Member
  documentation : Option String
  startLine : Nat
  endLine : Nat
  deriving DecidableEq, Repr

structure Entity where
  declaration : Declaration
  inner : List Entity
  deriving Repr

mutual

/-- The type and all types nested in it, each before those inside it. -/
def Entity.walk : Entity → List Declaration
  | ⟨d, inner⟩ => d :: walkAll inner

def walkAll : List Entity → List Declaration
  | [] => []
  | e :: rest => e.walk ++ walkAll rest

end

structure SourceFile where
  path : String
  language : String
  package : Option String
  imports : List String
  entities : List Entity
  deriving Repr

def SourceFile.declarations (f : SourceFile) : List Declaration := walkAll f.entities

/-- The result of reading a source file. -/
inductive Reading where
  | parsed (file : SourceFile)
  | degraded (file : SourceFile) (reason : String)
  | failed (reason : String)
  deriving Repr

namespace Reading

def file? : Reading → Option SourceFile
  | parsed f | degraded f _ => some f
  | failed _ => none

def degradedReason? : Reading → Option String
  | degraded _ reason => some reason
  | _ => none

def insteadOf (reason : String) : Reading → Reading
  | parsed f => degraded f reason
  | degraded f inner => degraded f (reason ++ "; " ++ inner)
  | failed inner => failed (reason ++ "; " ++ inner)

end Reading

abbrev Reader := String → String → Reading

/-- Reads with `second` wherever `first` fails. -/
def Reader.orElse (first second : Reader) : Reader := fun path text =>
  match first path text with
  | .failed reason => (second path text).insteadOf reason
  | reading => reading

def baseTypeName (typeName : String) : String :=
  let head := String.ofList (typeName.toList.takeWhile (· != '<'))
  let head := Text.trim (Text.replace "[]" "" (Text.dropTails "..." (Text.trim head)))
  Text.afterLast '.' head

end CodeRetrieval.Source
