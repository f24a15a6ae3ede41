import CodeRetrieval.Embedding.Vector
import CodeRetrieval.Failure

/-!
Embedding many texts in calls that respect the limits of a service. Texts over the limit on tokens
are never sent; the others are grouped greedily in order. A group that the service refuses for its
length is sent again one text at a time.
-/

set_option autoImplicit false

namespace CodeRetrieval

structure BatchLimits where
  maxTokens : Nat
  maxItems : Nat
  charsPerToken : Float

def BatchLimits.standard : BatchLimits := ⟨15000, 100, 2.0⟩

def wholeOf (x : Float) : Nat := x.toUInt64.toNat

/-- Characters per token, rounded up; every character is a token if the ratio is not positive. -/
def estimateTokens (text : String) (charsPerToken : Float) : Nat :=
  let chars := Float.ofNat text.length
  if charsPerToken ≤ 0 then wholeOf chars else wholeOf (chars / charsPerToken).ceil

def BatchLimits.tokens (limits : BatchLimits) (text : String) : Nat :=
  estimateTokens text limits.charsPerToken

structure BatchPlan where
  batches : List (List Nat)
  oversize : List Nat
  deriving DecidableEq, Repr

/-- The pending group, held in reverse, is closed when the next text does not fit. -/
def planFrom (maxTokens maxItems : Nat) : List Nat → Nat → List (Nat × Nat) → BatchPlan
  | pending, _, [] => ⟨if pending.isEmpty then [] else [pending.reverse], []⟩
  | pending, total, (i, tokens) :: rest =>
    if maxTokens < tokens then
      let plan := planFrom maxTokens maxItems pending total rest
      { plan with oversize := i :: plan.oversize }
    else if !pending.isEmpty ∧ (maxTokens < total + tokens ∨ maxItems ≤ pending.length) then
      let plan := planFrom maxTokens maxItems [i] tokens rest
      { plan with batches := pending.reverse :: plan.batches }
    else planFrom maxTokens maxItems (i :: pending) (total + tokens) rest

def planTokens (maxTokens maxItems : Nat) (tokens : List Nat) : BatchPlan :=
  planFrom maxTokens (max 1 maxItems) [] 0 (tokens.zipIdx.map fun (t, i) => (i, t))

def planBatches (texts : List String) (limits : BatchLimits) : BatchPlan :=
  planTokens limits.maxTokens limits.maxItems (texts.map limits.tokens)

/-- A service that turns texts into vectors. What it answers may depend on how many calls it has
had before. -/
structure Embedder where
  model : String
  dims : Nat
  embedTexts : Nat → List String → Outcome (List Embedding)

/-- The calls made so far, in order, by the texts they sent. -/
abbrev CallLog := List (List String)

def Embedder.call (e : Embedder) (log : CallLog) (texts : List String) :
    Outcome (List Embedding) × CallLog :=
  (e.embedTexts log.length texts, log ++ [texts])

/-- A call with a single text: its vector is the last one that comes back. -/
def Embedder.embed (e : Embedder) (log : CallLog) (text : String) : Outcome Embedding × CallLog :=
  match e.call log [text] with
  | (.ok vectors, log) =>
    (match vectors.getLast? with
      | some v => .ok v
      | none => .error (.plain "embedding service returned no vector"), log)
  | (.error f, log) => (.error f, log)

structure SkippedText where
  index : Nat
  estimatedTokens : Nat
  reason : String
  deriving DecidableEq, Repr

inductive Slot where
  | filled (index : Nat) (vector : Embedding)
  | skipped (text : SkippedText)
  deriving DecidableEq, Repr

structure BatchEmbedding where
  vectors : List (Option Embedding)
  skipped : List SkippedText
  deriving DecidableEq, Repr

def BatchEmbedding.embeddedCount (b : BatchEmbedding) : Nat := (b.vectors.filter Option.isSome).length

/-- An individual failure after a refused batch: skipped, whatever the failure. -/
def skipAfter (limits : BatchLimits) (i : Nat) (text : String) (f : Failure) : Slot :=
  .skipped ⟨i, limits.tokens text, f.fullText⟩

def embedSingly (e : Embedder) (limits : BatchLimits) :
    CallLog → List (Nat × String) → List Slot × CallLog
  | log, [] => ([], log)
  | log, (i, text) :: rest =>
    match e.embed log text with
    | (answer, log) =>
      let slot := match answer with
        | .ok v => .filled i v
        | .error f => skipAfter limits i text f
      let (slots, log) := embedSingly e limits log rest
      (slot :: slots, log)

/-- Sends one batch. Only a refusal for its length is followed by further calls. -/
def embedOne (e : Embedder) (limits : BatchLimits) (log : CallLog) (batch : List (Nat × String)) :
    Outcome (List Slot) × CallLog :=
  match e.call log (batch.map (·.2)) with
  | (.ok vectors, log) =>
    if vectors.length = batch.length then
      (.ok ((batch.zip vectors).map fun (t, v) => .filled t.1 v), log)
    else
      (.error (.plain
        s!"embedding service returned {vectors.length} vectors for {batch.length} texts"), log)
  | (.error f, log) =>
    if f.isTokenLimit then
      let (slots, log) := embedSingly e limits log batch
      (.ok slots, log)
    else (.error f, log)

def embedAll (e : Embedder) (limits : BatchLimits) :
    CallLog → List (List (Nat × String)) → Outcome (List Slot) × CallLog
  | log, [] => (.ok [], log)
  | log, batch :: rest =>
    match embedOne e limits log batch with
    | (.error f, log) => (.error f, log)
    | (.ok slots, log) =>
      match embedAll e limits log rest with
      | (.error f, log) => (.error f, log)
      | (.ok more, log) => (.ok (slots ++ more), log)

def Slot.vectorAt (i : Nat) : Slot → Option Embedding
  | .filled j v => if j = i then some v else none
  | .skipped _ => none

def Slot.skip? : Slot → Option SkippedText
  | .filled .. => none
  | .skipped t => some t

def pick (texts : List String) (indices : List Nat) : List (Nat × String) :=
  indices.map fun i => (i, texts.getD i "")

def oversizeText (limits : BatchLimits) (i : Nat) (text : String) : SkippedText :=
  let tokens := limits.tokens text
  ⟨i, tokens, (Failure.batchTokenLimit i tokens limits.maxTokens).message⟩

def embedBatch (e : Embedder) (texts : List String) (limits : BatchLimits) (log : CallLog) :
    Outcome BatchEmbedding × CallLog :=
  let plan := planBatches texts limits
  match embedAll e limits log (plan.batches.map (pick texts)) with
  | (.error f, log) => (.error f, log)
  | (.ok slots, log) =>
    let skipped := (pick texts plan.oversize).map (fun (i, t) => oversizeText limits i t) ++
      slots.filterMap Slot.skip?
    (.ok {
      vectors := (List.range texts.length).map fun i => slots.findSome? (Slot.vectorAt i)
      skipped := skipped.mergeSort fun a b => a.index ≤ b.index }, log)

end CodeRetrieval
