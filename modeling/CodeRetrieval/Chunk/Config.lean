import CodeRetrieval.Artifact
import CodeRetrieval.Chunk.Limits
import CodeRetrieval.Json.Printer
import CodeRetrieval.Json.Reader
import CodeRetrieval.Reference
import CodeRetrieval.Toml.Document
import CodeRetrieval.Toml.Printer

/-!
Fragments of configuration documents: one for the whole document and, if that is too long, one for
each key at its top level.
-/

set_option autoImplicit false

namespace CodeRetrieval.Chunk

structure ConfigSection where
  key : String
  rendered : String
  deriving DecidableEq, Repr

/-- The keys of a document in increasing order; none if it is not well-formed or holds no keys. -/
def configSections (format : ConfigFormat) (text : String) : List ConfigSection :=
  match format with
  | .json =>
    match Json.parse? text with
    | some (.obj fields) => fields.map fun (k, v) => ⟨k, (Json.obj [(k, v)]).pretty⟩
    | _ => []
  | .toml => ((Toml.parse? text).getD []).map fun (k, v) => ⟨k, Toml.printEntry k v⟩

def setsKey (format : ConfigFormat) (key line : String) : Bool :=
  match format with
  | .json => Text.contains line ("\"" ++ key ++ "\"")
  | .toml =>
    let t := Text.trimStart line
    Text.startsWith t ("[" ++ key ++ "]") || Text.startsWith t ("[[" ++ key ++ "]]") ||
      (Text.afterLead? t key).any fun rest => Text.startsWith (Text.trimStart rest) "="

def keyLine (format : ConfigFormat) (lines : List String) (key : String) : Nat :=
  match lines.findIdx? (setsKey format key) with
  | some i => i + 1
  | none => 1

def configText (name : String) (references : List String) (text : String) : String :=
  Text.unlines (
    ["// Config: " ++ name] ++
    (if references.isEmpty then [] else ["// References: " ++ Text.join ", " references])) ++
    "\n\n" ++ Text.trimEnd text

def sectionText (name : String) (s : ConfigSection) : String :=
  "// Config: " ++ name ++ ", Section: " ++ s.key ++ "\n\n" ++ Text.trimEnd s.rendered

def ofConfigSection (limits : ChunkLimits) (known : KnownNames) (path : String)
    (format : ConfigFormat) (text : String) (s : ConfigSection) : Option Fragment :=
  let name := Fragment.stem path
  (bound limits (sectionText name s) codeMarker).map fun content =>
    let total := max 1 (Text.lineCount text)
    let start := keyLine format (Text.lines text) s.key
    let span := max 1 (Text.lineCount s.rendered - 2)
    { id := fragmentId path (name ++ "#" ++ s.key) .configSection
      content
      language := format.language
      kind := .configSection
      filePath := path
      startLine := start
      endLine := min (start + span - 1) (max total start)
      entityName := none
      memberName := none
      documentation := none
      references := Reference.ofText s.rendered known
      metadata := [("document_name", .str name), ("section", .str s.key)] }

def ofConfigWhole (limits : ChunkLimits) (known : KnownNames) (path : String)
    (format : ConfigFormat) (text : String) : Option Fragment :=
  let name := Fragment.stem path
  let references := Reference.ofText text known
  (bound limits (configText name references text) codeMarker).map fun content => {
    id := fragmentId path name .configDocument
    content
    language := format.language
    kind := .configDocument
    filePath := path
    startLine := 1
    endLine := max 1 (Text.lineCount text)
    entityName := none
    memberName := none
    documentation := none
    references
    metadata := [
      ("document_name", .str name),
      ("keys", .ofStrings ((configSections format text).map (·.key)))] }

def isLongConfig (limits : ChunkLimits) (known : KnownNames) (path text : String) : Bool :=
  limits.maxChunkLines <
    Text.lineCount (configText (Fragment.stem path) (Reference.ofText text known) text)

def ofConfig (limits : ChunkLimits) (known : KnownNames) (path : String) (format : ConfigFormat)
    (text : String) : List Fragment :=
  (ofConfigWhole limits known path format text).toList ++
    (if isLongConfig limits known path text then
      (configSections format text).filterMap (ofConfigSection limits known path format text)
    else [])

end CodeRetrieval.Chunk
