import CodeRetrieval.Fragment.Basic

set_option autoImplicit false

namespace CodeRetrieval

inductive ConfigFormat where
  | json
  | toml
  deriving DecidableEq, Repr

inductive ProseFormat where
  | markdown
  | text
  | rst
  deriving DecidableEq, Repr

inductive ArtifactKind where
  | structural
  | config (format : ConfigFormat)
  | prose (format : ProseFormat)
  deriving DecidableEq, Repr

def ConfigFormat.language : ConfigFormat → String
  | json => "json"
  | toml => "toml"

def ProseFormat.language : ProseFormat → String
  | markdown => "markdown"
  | text => "text"
  | rst => "rst"

namespace ArtifactKind

def language : ArtifactKind → String
  | structural => "java"
  | config f => f.language
  | prose f => f.language

def ofExtension? : String → Option ArtifactKind
  | "java" => some structural
  | "json" => some (config .json)
  | "toml" => some (config .toml)
  | "md" => some (prose .markdown)
  | "markdown" => some (prose .markdown)
  | "txt" => some (prose .text)
  | "rst" => some (prose .rst)
  | _ => none

def asciiLower (s : String) : String :=
  String.ofList (s.toList.map fun c => if c.toNat < 128 then c.toLower else c)

def ofPath? (path : String) : Option ArtifactKind :=
  (Text.cutLastBy? (· == '.') path).bind fun (_, ext) => ofExtension? (asciiLower ext)

end ArtifactKind

structure Artifact where
  /-- Path below the indexed root, with forward slashes. -/
  path : String
  text : String
  deriving DecidableEq, Repr

namespace Artifact

def new (path text : String) : Artifact := ⟨normalizePath path, text⟩

def kind? (a : Artifact) : Option ArtifactKind := ArtifactKind.ofPath? a.path

def isStructural (a : Artifact) : Bool := a.kind? == some .structural

def lineCount (a : Artifact) : Nat := Text.lineCount a.text

end Artifact

end CodeRetrieval
