import CodeRetrieval.Distinct
import CodeRetrieval.Embedding.Batch
import CodeRetrieval.Files.Scan
import CodeRetrieval.Index.Build
import CodeRetrieval.Settings.Basic
import CodeRetrieval.Store.Basic

/-!
Bringing a store up to date with a tree. What is stored of files that have changed is removed first;
then all fragments are written, with their vectors if embedding is on. Fragments that the embedding
service refuses for their length are not written at all.
-/

set_option autoImplicit false

namespace CodeRetrieval

structure IndexOptions where
  dryRun : Bool := false
  reset : Bool := false
  deriving DecidableEq, Repr

structure IndexSummary where
  filesScanned : Nat
  filesSkipped : Nat
  structuralFiles : Nat
  degradedFiles : Nat
  failedFiles : Nat
  units : Nat
  embedded : Nat := 0
  embedSkipped : Nat := 0
  stored : Nat := 0
  removed : Nat := 0
  deriving DecidableEq, Repr

inductive IndexEvent where
  | scanning (root : String)
  | parsing (n total : Nat)
  | chunked (units files : Nat)
  | embedding (n total : Nat)
  | stored (units : Nat)
  deriving DecidableEq, Repr

structure IndexState (S : Type) where
  store : S
  events : List IndexEvent
  calls : CallLog

/-- A part of a run: it may fail, and what it has done by then stays done. -/
abbrev IndexRun (S : Type) := ExceptT Failure (StateM (IndexState S))

namespace IndexRun

variable {S : Type}

def result {α : Type} (r : IndexRun S α) (store : S) : Outcome α × IndexState S :=
  (ExceptT.run r).run ⟨store, [], []⟩

def ofOutcome {α : Type} (o : Outcome α) : IndexRun S α := ExceptT.mk (pure o)

def report (events : List IndexEvent) : IndexRun S Unit :=
  ExceptT.mk (modifyGet fun s => (.ok (), { s with events := s.events ++ events }))

def onStore (step : S → Outcome (Nat × S)) : IndexRun S Nat :=
  ExceptT.mk (modifyGet fun s =>
    match step s.store with
    | .ok (n, store) => (.ok n, { s with store })
    | .error f => (.error f, s))

def embedBatch (e : Embedder) (texts : List String) (limits : BatchLimits) :
    IndexRun S BatchEmbedding :=
  ExceptT.mk (modifyGet fun s =>
    let (answer, calls) := CodeRetrieval.embedBatch e texts limits s.calls
    (answer, { s with calls }))

end IndexRun

namespace Index

variable {S : Type} [Store S]

/-- The files of stored fragments whose ids no fragment has any more, each once. -/
def staleFiles (stored fresh : List Fragment) : List String :=
  let ids := fresh.map (·.id)
  distinct ((stored.filter fun f => !ids.contains f.id).map (·.filePath))

def deleteFiles (s : S) : List String → Outcome (Nat × S)
  | [] => .ok (0, s)
  | path :: rest => do
    let (n, s) ← Store.deletePath s path
    let (m, s) ← deleteFiles s rest
    return (n + m, s)

/-- Deletes what is stored of files that no longer yield all of their fragments. -/
def removeStale (s : S) (fresh : List Fragment) : Outcome (Nat × S) := do
  let stored ← Store.listAll s {}
  deleteFiles s (staleFiles stored fresh)

def writeSize : Nat := 500

def piecesOf {α : Type} (size : Nat) (xs : List α) : List (List α) :=
  if _h : size = 0 ∨ xs.isEmpty then []
  else xs.take size :: piecesOf size (xs.drop size)
  termination_by xs.length
  decreasing_by
    simp_all [List.isEmpty_iff]
    have := List.length_pos_iff.2 _h.2
    omega

inductive Written where
  | bare (fragments : List Fragment)
  | embedded (pairs : List (Fragment × Embedding))

def upsertPieces (s : S) : List (List Fragment × Option (List Embedding)) → Outcome (Nat × S)
  | [] => .ok (0, s)
  | (fragments, vectors) :: rest => do
    let (n, s) ← Store.upsert s fragments vectors
    let (m, s) ← upsertPieces s rest
    return (n + m, s)

def Written.pieces : Written → List (List Fragment × Option (List Embedding))
  | bare fragments => (piecesOf writeSize fragments).map (·, none)
  | embedded pairs => (piecesOf writeSize pairs).map fun ps => (ps.map (·.1), some (ps.map (·.2)))

def withVectors (fragments : List Fragment) (vectors : List (Option Embedding)) :
    List (Fragment × Embedding) :=
  (fragments.zip vectors).filterMap fun (f, v) => v.map (f, ·)

/-- The fragments to be written, and how many were embedded and how many refused. -/
def embed (s : EmbeddingSettings) (e : Embedder) (fragments : List Fragment) :
    IndexRun S (Written × Nat × Nat) := do
  if s.isEnabled then
    let texts := fragments.map (·.embeddingText)
    let batch ← IndexRun.embedBatch e texts s.limits
    IndexRun.report [.embedding batch.embeddedCount texts.length]
    return (.embedded (withVectors fragments batch.vectors), batch.embeddedCount,
      batch.skipped.length)
  else return (.bare fragments, 0, 0)

/-- Brings the store up to date with fragments, and completes their summary. -/
def write (s : EmbeddingSettings) (e : Embedder) (reset : Bool) (fragments : List Fragment)
    (summary : IndexSummary) : IndexRun S IndexSummary := do
  let removed ← IndexRun.onStore fun store =>
    if reset then Store.deletePathLead store "" else removeStale store fragments
  let (written, embedded, embedSkipped) ← embed s e fragments
  let stored ← IndexRun.onStore fun store => upsertPieces store written.pieces
  IndexRun.report [.stored stored]
  return { summary with embedded, embedSkipped, stored, removed }

def buildEvents (b : IndexBuild) : List IndexEvent :=
  (List.range b.structural).map (fun i => .parsing (i + 1) b.structural) ++
    [.chunked b.fragments.length b.files]

def summaryOf (scan : Scan) (b : IndexBuild) : IndexSummary where
  filesScanned := scan.artifacts.length + scan.unreadable
  filesSkipped := scan.unreadable + b.skipped
  structuralFiles := b.structural
  degradedFiles := b.degraded
  failedFiles := b.failed
  units := b.fragments.length

def ofScan (s : Settings) (e : Embedder) (reader : Source.Reader) (o : IndexOptions)
    (scan : Scan) : IndexRun S IndexSummary := do
  let b := IndexBuild.ofArtifacts .inOrder .inOrder s.chunking reader scan.artifacts
  IndexRun.report (buildEvents b)
  let summary := summaryOf scan b
  if o.dryRun then return summary
  else write s.embedding e o.reset b.fragments summary

def run (s : Settings) (files : FileTree) (here : FilePath) (e : Embedder)
    (reader : Source.Reader) (o : IndexOptions) : IndexRun S IndexSummary := do
  IndexRun.report [.scanning s.index.root]
  let scan ← IndexRun.ofOutcome (Scan.ofTree files here s.index)
  ofScan s e reader o scan

end Index

end CodeRetrieval
