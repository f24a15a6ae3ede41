import CodeRetrieval.Chunk.Code
import CodeRetrieval.Chunk.Config
import CodeRetrieval.Chunk.Prose

/-!
Fragments of a whole list of artifacts. All source files are read first, because what counts as a
reference depends on the entities of all of them.
-/

set_option autoImplicit false

namespace CodeRetrieval.Chunk

def accepts (limits : ChunkLimits) (a : Artifact) : Bool := a.lineCount ≤ limits.maxFileLines

def ofDocument (limits : ChunkLimits) (known : KnownNames) (a : Artifact) : List Fragment :=
  match a.kind? with
  | some (.config format) => ofConfig limits known a.path format a.text
  | some (.prose format) => ofProse limits known a.path format a.text
  | _ => []

/-- The first fragment of each id. -/
def dedupe (fragments : List Fragment) : List Fragment := distinctOn (·.id) fragments

def readings (reader : Source.Reader) (artifacts : List Artifact) : List Source.Reading :=
  (artifacts.filter (·.isStructural)).map fun a => reader a.path a.text

def knownNames (readings : List Source.Reading) : KnownNames :=
  .ofFiles (readings.filterMap (·.file?))

def ofArtifacts (limits : ChunkLimits) (reader : Source.Reader) (artifacts : List Artifact) :
    List Fragment :=
  let accepted := artifacts.filter (accepts limits)
  let rs := readings reader accepted
  let known := knownNames rs
  dedupe (rs.flatMap (ofReading limits known) ++ accepted.flatMap (ofDocument limits known))

end CodeRetrieval.Chunk
