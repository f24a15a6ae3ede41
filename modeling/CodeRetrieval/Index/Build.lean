import CodeRetrieval.Chunk.Artifacts
import CodeRetrieval.Index.Schedule

/-!
Fragments of the artifacts of a tree, made file by file. All source files are read before the first
fragment is made; within both phases the files may be finished in any order.
-/

set_option autoImplicit false

namespace CodeRetrieval

structure IndexBuild where
  fragments : List Fragment
  skipped : Nat
  structural : Nat
  degraded : Nat
  failed : Nat
  files : Nat
  deriving DecidableEq, Repr

namespace Source.Reading

def isDegraded : Source.Reading → Bool
  | .degraded .. => true
  | _ => false

def isFailed : Source.Reading → Bool
  | .failed .. => true
  | _ => false

end Source.Reading

inductive ChunkTask where
  | code (reading : Source.Reading)
  | document (artifact : Artifact)

def ChunkTask.run (limits : ChunkLimits) (known : KnownNames) : ChunkTask → List Fragment
  | code r => Chunk.ofReading limits known r
  | document a => Chunk.ofDocument limits known a

/-- Makes the fragments of artifacts: the first schedule is that of reading source files, the second
that of making fragments. -/
def IndexBuild.ofArtifacts (reading chunking : Schedule) (limits : ChunkLimits)
    (reader : Source.Reader) (artifacts : List Artifact) : IndexBuild :=
  let accepted := artifacts.filter (Chunk.accepts limits)
  let structural := accepted.filter (·.isStructural)
  let documents := accepted.filter (!·.isStructural)
  let readings := reading.collect (fun a : Artifact => reader a.path a.text) structural
  let known := Chunk.knownNames readings
  let tasks := readings.map ChunkTask.code ++ documents.map ChunkTask.document
  let pieces := chunking.collect (ChunkTask.run limits known) tasks
  { fragments := Chunk.dedupe pieces.flatten
    skipped := artifacts.length - accepted.length
    structural := structural.length
    degraded := (readings.filter (·.isDegraded)).length
    failed := (readings.filter (·.isFailed)).length
    files := pieces.length }

end CodeRetrieval
