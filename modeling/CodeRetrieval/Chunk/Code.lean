import CodeRetrieval.Chunk.Limits
import CodeRetrieval.Fragment.Basic
import CodeRetrieval.Reference

/-!
Fragments of source code: one for each declared type, which writes its declaration out without
bodies, and one for each member whose body is worth finding.
-/

set_option autoImplicit false

namespace CodeRetrieval.Chunk

open Source

def docLines (doc : String) : List String :=
  ["/**"] ++ (Text.lines doc).map (" * " ++ ·) ++ [" */"]

def docBlock (limits : ChunkLimits) (doc : Option String) : List String :=
  if limits.includeDocumentation then (doc.map docLines).getD [] else []

def declarationLine (d : Declaration) : String :=
  let keyword := if d.kind == "interface" then "extends" else "implements"
  Text.join " " (
    d.modifiers ++ [d.kind, d.name] ++ (d.superclass.map ("extends " ++ ·)).toList ++
    (if d.interfaces.isEmpty then [] else [keyword ++ " " ++ Text.join ", " d.interfaces])) ++
    " \x7b"

def fieldLine (f : Field) : String :=
  "    " ++ Text.join " " (f.modifiers ++ [f.typeName, f.name]) ++ ";"

def memberLine (m : Member) : String := "    " ++ m.signature ++ ";"

def headLines (limits : ChunkLimits) (file : SourceFile) (degraded : Option String)
    (d : Declaration) : List String :=
  (file.package.map fun p => "package " ++ p ++ ";").toList ++
    (degraded.map ("// partial extraction: " ++ ·)).toList ++
    docBlock limits d.documentation ++ d.annotations ++ [declarationLine d]

def bodyLines (d : Declaration) : List String :=
  d.fields.map fieldLine ++
    (if d.fields.isEmpty || d.members.isEmpty then [] else [""]) ++ d.members.map memberLine

def summaryLines (d : Declaration) : List String :=
  [s!"    // {d.fields.length} fields", s!"    // {d.members.length} methods:"] ++
    d.members.map fun m => "    //   - " ++ m.signature

def needsSummary (limits : ChunkLimits) (head : List String) (d : Declaration) : Bool :=
  limits.maxChunkLines < (head ++ bodyLines d ++ ["\x7d"]).length

/-- A declaration as text: written out in full, or a summary cut to the limit. -/
def declarationText (limits : ChunkLimits) (head : List String) (d : Declaration) : String :=
  if needsSummary limits head d then
    truncate (Text.unlines (head ++ summaryLines d ++ ["\x7d"])) limits.maxChunkLines codeMarker
  else Text.unlines (head ++ bodyLines d ++ ["\x7d"])

def declarationMetadata (file : SourceFile) (degraded summarized : Bool) (d : Declaration) :
    List (String × Json) := [
  ("degraded", .bool degraded),
  ("entity_kind", .str d.kind),
  ("extends", .ofText? d.superclass),
  ("field_count", .ofNat d.fields.length),
  ("implements", .ofStrings d.interfaces),
  ("member_count", .ofNat d.members.length),
  ("package", .ofText? file.package),
  ("summarized", .bool summarized)]

def ofDeclaration (limits : ChunkLimits) (file : SourceFile) (degraded : Option String)
    (known : KnownNames) (d : Declaration) : Option Fragment :=
  let head := headLines limits file degraded d
  (bound limits (declarationText limits head d) codeMarker).map fun content => {
    id := fragmentId file.path d.qualifiedName .entity
    content
    language := file.language
    kind := .entity
    filePath := file.path
    startLine := d.startLine
    endLine := max d.endLine d.startLine
    entityName := some d.qualifiedName
    memberName := none
    documentation := if limits.includeDocumentation then d.documentation else none
    references := Reference.ofDeclaration file d known
    metadata := declarationMetadata file degraded.isSome (needsSummary limits head d) d }

/-- A name that starts like that of an accessor: with a short word and a capital. -/
def isAccessorName (name : String) : Bool :=
  ["get", "set", "is", "has"].any fun lead =>
    match Text.Chars.afterLead lead.toList name.toList with
    | some (c :: _) => c.isUpper
    | _ => false

def accessorLines : Nat := 3

def isNotable (limits : ChunkLimits) (m : Member) : Bool :=
  !(isAccessorName m.name && Text.lineCount m.body ≤ accessorLines) &&
    limits.minMemberChars ≤ (Text.trim m.body).utf8ByteSize

def memberText (limits : ChunkLimits) (file : SourceFile) (d : Declaration) (m : Member) :
    String :=
  Text.unlines (
    ["// From class: " ++ d.qualifiedName] ++ (file.package.map ("// Package: " ++ ·)).toList ++
    docBlock limits m.documentation ++ m.annotations ++ [m.body])

def ofMember (limits : ChunkLimits) (file : SourceFile) (known : KnownNames) (d : Declaration)
    (m : Member) : Option Fragment :=
  if isNotable limits m then
    (bound limits (memberText limits file d m) codeMarker).map fun content => {
      id := fragmentId file.path (d.qualifiedName ++ "." ++ m.idName) .member
      content
      language := file.language
      kind := .member
      filePath := file.path
      startLine := m.startLine
      endLine := max m.endLine m.startLine
      entityName := some d.qualifiedName
      memberName := some m.name
      documentation := if limits.includeDocumentation then m.documentation else none
      references := Reference.ofMember m d known
      metadata := [
        ("member_kind", .str m.kind.name),
        ("signature", .str m.signature),
        ("truncated", .bool (isTruncated content))] }
  else none

def ofDeclarationAll (limits : ChunkLimits) (file : SourceFile) (degraded : Option String)
    (known : KnownNames) (d : Declaration) : List Fragment :=
  (ofDeclaration limits file degraded known d).toList ++
    (if limits.includeMembers then d.members.filterMap (ofMember limits file known d) else [])

def ofReading (limits : ChunkLimits) (known : KnownNames) (r : Reading) : List Fragment :=
  match r.file? with
  | none => []
  | some file =>
    file.declarations.flatMap (ofDeclarationAll limits file r.degradedReason? known)

end CodeRetrieval.Chunk
