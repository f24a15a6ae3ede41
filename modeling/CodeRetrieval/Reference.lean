import CodeRetrieval.Distinct
import CodeRetrieval.Source.Declaration

/-!
References: the names of other entities that a fragment depends on or mentions. Once any entity is
known, only names of known entities count.
-/

set_option autoImplicit false

namespace CodeRetrieval

/-- Names of the entities found in all source files, simple and qualified, in increasing order. -/
structure KnownNames where
  names : List String
  deriving DecidableEq, Repr

namespace KnownNames

def ofNames (names : List String) : KnownNames := ⟨sortedSet names⟩

def ofFiles (files : List Source.SourceFile) : KnownNames :=
  ofNames (files.flatMap fun f => f.declarations.flatMap fun d => [d.name, d.qualifiedName])

def admits (k : KnownNames) (name : String) : Bool := k.names.isEmpty || k.names.contains name

end KnownNames

namespace Reference

def foreignPackages : List String := [
  "java.", "javax.", "org.springframework.", "com.google.", "org.apache.", "org.slf4j.",
  "lombok.", "org.junit."]

def builtinTypes : List String := [
  "String", "Integer", "Long", "Double", "Float", "Boolean", "Byte", "Short", "Character",
  "Object", "Class", "Void", "List", "ArrayList", "LinkedList", "Set", "HashSet", "TreeSet",
  "Map", "HashMap", "TreeMap", "LinkedHashMap", "Collection", "Optional", "Stream", "Collectors",
  "Arrays", "Collections", "Exception", "RuntimeException", "Throwable", "Error"]

def imported? (name : String) : Option String :=
  if Text.endsWith name ".*" || foreignPackages.any (Text.startsWith name ·) then none
  else some (Text.afterLast '.' name)

def signatureTypes (m : Source.Member) : List String :=
  m.parameters.map (·.typeName) ++ m.returnType.toList

def startsUpper (name : String) : Bool := name.toList.head?.any Char.isUpper

def select (candidates own : List String) (known : KnownNames) : List String :=
  sortedSet ((candidates.map Source.baseTypeName).filter fun name =>
    startsUpper name && !builtinTypes.contains name && !own.contains name && known.admits name)

def ownNames (d : Source.Declaration) : List String := [d.name, d.qualifiedName]

def ofDeclaration (file : Source.SourceFile) (d : Source.Declaration) (known : KnownNames) :
    List String :=
  select
    (file.imports.filterMap imported? ++ d.superclass.toList ++ d.interfaces ++
      d.fields.map (·.typeName) ++ d.members.flatMap signatureTypes)
    (ownNames d) known

def ofMember (m : Source.Member) (d : Source.Declaration) (known : KnownNames) : List String :=
  select (signatureTypes m) (ownNames d) known

def isCapitalized (word : String) : Bool :=
  match word.toList with
  | [] => false
  | c :: rest => c.isUpper && rest.all Char.isAlphanum

def ofText (text : String) (known : KnownNames) : List String :=
  sortedSet ((Text.words text).filter fun w => isCapitalized w && known.admits w)

end Reference

end CodeRetrieval
