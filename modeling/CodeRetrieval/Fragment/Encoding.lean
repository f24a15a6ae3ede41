import CodeRetrieval.Fragment.Basic

set_option autoImplicit false

namespace CodeRetrieval

/-- The name of a kind, alone or as the only field of an object whose value is null. -/
def FragmentKind.ofJson? : Json → Option FragmentKind
  | .str s => ofName? s
  | .obj [(name, .null)] => ofName? name
  | _ => none

namespace Fragment

def fields (f : Fragment) : List (String × Json) := [
  ("id", .str f.id),
  ("content", .str f.content),
  ("language", .str f.language),
  ("kind", .str f.kind.name),
  ("file_path", .str f.filePath),
  ("start_line", .ofNat f.startLine),
  ("end_line", .ofNat f.endLine),
  ("entity_name", .ofText? f.entityName),
  ("member_name", .ofText? f.memberName),
  ("documentation", .ofText? f.documentation),
  ("references", .ofStrings f.references),
  ("metadata", .obj f.metadata)]

def toJson (f : Fragment) : Json := .obj f.fields

def optionalText? : Json → Option (Option String)
  | .null => some none
  | .str s => some (some s)
  | _ => none

def texts? (v : Json) : Option (List String) := v.items?.bind (·.mapM Json.text?)

def ofParts? (part : String → Option Json) : Option Fragment := do
  some {
    id := ← (← part "id").text?
    content := ← (← part "content").text?
    language := ← (← part "language").text?
    kind := ← FragmentKind.ofJson? (← part "kind")
    filePath := ← (← part "file_path").text?
    startLine := ← (← part "start_line").nat?
    endLine := ← (← part "end_line").nat?
    entityName := ← optionalText? (← part "entity_name")
    memberName := ← optionalText? (← part "member_name")
    documentation := ← optionalText? (← part "documentation")
    references := ← texts? (← part "references")
    metadata := ← (← part "metadata").fields? }

def partNames : List String := [
  "id", "content", "language", "kind", "file_path", "start_line", "end_line", "entity_name",
  "member_name", "documentation", "references", "metadata"]

def trailingDefaults : List (String × Json) := [("references", .arr []), ("metadata", .obj [])]

def defaults : List (String × Json) :=
  [("entity_name", .null), ("member_name", .null), ("documentation", .null)] ++ trailingDefaults

def ofJson? : Json → Option Fragment
  | .obj fields => ofParts? fun name => (fields.lookup name).orElse fun _ => defaults.lookup name
  | .arr items =>
    if partNames.length < items.length then none
    else
      ofParts? fun name =>
        ((partNames.zip items).lookup name).orElse fun _ => trailingDefaults.lookup name
  | _ => none

end Fragment

end CodeRetrieval
