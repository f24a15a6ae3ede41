import CodeRetrieval.Digest.Sha256
import CodeRetrieval.Fragment.Kind
import CodeRetrieval.Json.Value
import CodeRetrieval.Text.Lines

set_option autoImplicit false

namespace CodeRetrieval

structure Fragment where
  id : String
  content : String
  language : String
  kind : FragmentKind
  filePath : String
  startLine : Nat
  endLine : Nat
  /-- The type it belongs to; `Outer.Inner` for nested ones. -/
  entityName : Option String
  memberName : Option String
  documentation : Option String
  references : List String
  metadata : List (String × Json)
  deriving DecidableEq, Repr

namespace Fragment

def lineCount (f : Fragment) : Nat := Text.lineCount f.content

def displayName (f : Fragment) : String :=
  match f.entityName, f.memberName with
  | some e, some m => e ++ "." ++ m
  | some e, none => e
  | none, some m => m
  | none, none => f.filePath

def stem (path : String) : String :=
  let file := Text.afterLast '/' path
  match Text.cutLastBy? (· == '.') file with
  | some (lead, _) => if lead.isEmpty then file else lead
  | none => file

def metadataText? (f : Fragment) (key : String) : Option String :=
  (f.metadata.lookup key).bind Json.text?

def documentName (f : Fragment) : String := (f.metadataText? "document_name").getD (stem f.filePath)

def embeddingText (f : Fragment) : String :=
  Text.unlines (
    ["Language: " ++ f.language, "Type: " ++ f.kind.name] ++
    (f.entityName.map ("Class: " ++ ·)).toList ++
    (f.memberName.map ("Method: " ++ ·)).toList ++
    (f.documentation.map ("Documentation: " ++ ·)).toList ++
    ["Code:\n" ++ f.content])

def location (f : Fragment) : String := s!"{f.filePath}:{f.startLine}-{f.endLine}"

end Fragment

def idText (path name : String) (kind : FragmentKind) : String :=
  path ++ ":" ++ name ++ ":" ++ kind.name

/-- An id that stays the same as long as path, name and kind do. -/
def fragmentId (path name : String) (kind : FragmentKind) : String :=
  String.ofList ((Sha256.hex (idText path name kind).toUTF8.toList).take 16)

def normalizePath (path : String) : String :=
  Text.dropLeads "./" (String.ofList (path.toList.map fun c => if c = '\\' then '/' else c))

structure Ranked (σ : Type) where
  fragment : Fragment
  score : σ

end CodeRetrieval
