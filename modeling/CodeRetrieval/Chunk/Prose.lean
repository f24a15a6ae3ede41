import CodeRetrieval.Artifact
import CodeRetrieval.Chunk.Limits
import CodeRetrieval.Reference

/-!
Fragments of prose: one for the whole document and, if that is too long, sections. Markdown is split
at the headers of its highest level, other prose into groups of paragraphs.
-/

set_option autoImplicit false

namespace CodeRetrieval.Chunk

structure Section where
  title : String
  text : String
  startLine : Nat
  endLine : Nat
  deriving DecidableEq, Repr

def header? (line : String) : Option (Nat × String) :=
  let hashes := line.toList.takeWhile (· == '#')
  match line.toList.dropWhile (· == '#') with
  | ' ' :: rest =>
    if 1 ≤ hashes.length ∧ hashes.length ≤ 6 then
      some (hashes.length, String.ofList (Text.Chars.trim rest))
    else none
  | _ => none

def sectionOf? (lines : List String) (start stop : Nat) (title : String) : Option Section :=
  let text := Text.trimEnd (Text.unlines ((lines.drop start).take (stop - start)))
  if Text.isBlankText text then none
  else some ⟨title, text, start + 1, start + max 1 (Text.lineCount text)⟩

structure Header where
  line : Nat
  level : Nat
  title : String
  deriving DecidableEq, Repr

def headersFrom (fenced : Bool) (i : Nat) : List String → List Header
  | [] => []
  | line :: rest =>
    if Text.startsWith (Text.trimStart line) "```" then headersFrom (!fenced) (i + 1) rest
    else if fenced then headersFrom fenced (i + 1) rest
    else
      match header? line with
      | some (level, title) => ⟨i, level, title⟩ :: headersFrom fenced (i + 1) rest
      | none => headersFrom fenced (i + 1) rest

/-- Runs of lines that are not blank, each with its first line and the line after its last;
`opened` is the first line of the run at hand. -/
def paragraphsFrom (opened : Option Nat) (i : Nat) : List String → List (Nat × Nat)
  | [] => (opened.map fun s => (s, i)).toList
  | line :: rest =>
    if Text.isBlankText line then
      (opened.map fun s => (s, i)).toList ++ paragraphsFrom none (i + 1) rest
    else paragraphsFrom (some (opened.getD i)) (i + 1) rest

/-- Paragraphs put together as long as the group has at most `most` lines; `group` is the group at
hand. -/
def groupFrom (most : Nat) (group : Nat × Nat) : List (Nat × Nat) → List (Nat × Nat)
  | [] => [group]
  | (s, e) :: rest =>
    if most < e - group.1 then group :: groupFrom most (s, e) rest
    else groupFrom most (group.1, e) rest

def groups (most : Nat) : List (Nat × Nat) → List (Nat × Nat)
  | [] => []
  | p :: rest => groupFrom most p rest

def paragraphSections (most : Nat) (lines : List String) : List Section :=
  (groups most (paragraphsFrom none 0 lines)).zipIdx.filterMap fun ((s, e), i) =>
    sectionOf? lines s e s!"part {i + 1}"

def headerSections (lines : List String) : List Header → List Section
  | [] => []
  | [h] => (sectionOf? lines h.line lines.length h.title).toList
  | h :: next :: rest =>
    (sectionOf? lines h.line next.line h.title).toList ++ headerSections lines (next :: rest)

def markdownSections (most : Nat) (lines : List String) : List Section :=
  let headers := headersFrom false 0 lines
  match (headers.map (·.level)).min? with
  | none => paragraphSections most lines
  | some top =>
    let tops := headers.filter (·.level == top)
    let intro := match tops with
      | [] => none
      | first :: _ => if 0 < first.line then sectionOf? lines 0 first.line "intro" else none
    intro.toList ++ headerSections lines tops

def proseSections (format : ProseFormat) (most : Nat) (body : String) : List Section :=
  match format with
  | .markdown => markdownSections most (Text.lines body)
  | .text | .rst => paragraphSections most (Text.lines body)

def proseTitle (format : ProseFormat) (name body : String) : String :=
  match format with
  | .markdown => ((Text.lines body).findSome? fun l => (header? l).map (·.2)).getD name
  | .text | .rst => name

def ofProseSection (limits : ChunkLimits) (known : KnownNames) (path : String)
    (format : ProseFormat) (s : Section) (index : Nat) : Option Fragment :=
  let name := Fragment.stem path
  (bound limits s.text docMarker).map fun content => {
    id := fragmentId path (s!"{name}#{index}:" ++ s.title) .proseSection
    content
    language := format.language
    kind := .proseSection
    filePath := path
    startLine := s.startLine
    endLine := s.endLine
    entityName := none
    memberName := none
    documentation := none
    references := Reference.ofText s.text known
    metadata := [
      ("document_name", .str name),
      ("section_index", .ofNat index),
      ("section_title", .str s.title)] }

def ofProseWhole (limits : ChunkLimits) (known : KnownNames) (path : String)
    (format : ProseFormat) (body : String) : Option Fragment :=
  let name := Fragment.stem path
  (bound limits body docMarker).map fun content => {
    id := fragmentId path name .proseDocument
    content
    language := format.language
    kind := .proseDocument
    filePath := path
    startLine := 1
    endLine := max 1 (Text.lineCount body)
    entityName := none
    memberName := none
    documentation := none
    references := Reference.ofText body known
    metadata := [
      ("document_name", .str name),
      ("title", .str (proseTitle format name body))] }

def ofProse (limits : ChunkLimits) (known : KnownNames) (path : String) (format : ProseFormat)
    (text : String) : List Fragment :=
  let body := Text.trimEnd text
  (ofProseWhole limits known path format body).toList ++
    (if max 1 (Text.lineCount body) ≤ limits.maxChunkLines then []
     else
      (proseSections format limits.maxChunkLines body).zipIdx.filterMap fun (s, i) =>
        ofProseSection limits known path format s i)

end CodeRetrieval.Chunk
