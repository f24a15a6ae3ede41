import CodeRetrieval.Distinct
import CodeRetrieval.Ranking.Keyword
import CodeRetrieval.Store.Basic

/-!
A store held in memory: fragments with their vectors, in increasing order of their ids, each id
once. Nothing it does can fail except an upsert with the wrong number of vectors.
-/

set_option autoImplicit false

namespace CodeRetrieval

structure Entry where
  fragment : Fragment
  vector : Option Embedding
  deriving DecidableEq, Repr

abbrev Entries := List Entry

namespace Entries

/-- Puts an entry in its place; one of the same id is replaced. -/
def insert (e : Entry) : Entries → Entries
  | [] => [e]
  | x :: rest =>
    if e.fragment.id < x.fragment.id then e :: x :: rest
    else if x.fragment.id < e.fragment.id then x :: insert e rest
    else e :: rest

def fragments (es : Entries) : List Fragment := es.map (·.fragment)

def write (es : Entries) (pairs : List (Fragment × Option Embedding)) : Entries :=
  pairs.foldl (fun acc (f, v) => insert ⟨f, v⟩ acc) es

def similar? (query : Embedding) (floor : Float32) (f : Fragment) (v : Embedding) :
    Option (Ranked Float) :=
  let s := Embedding.cosine query v
  if floor ≤ s then some ⟨f, s.toFloat⟩ else none

def search (es : Entries) (query : Embedding) (topK : Nat) (flt : Filter) (floor : Float32) :
    List (Ranked Float) :=
  rank topK ((es.filter (flt.accepts ·.fragment)).filterMap fun e =>
    e.vector.bind (similar? query floor e.fragment))

def keywordSearch {σ : Type} [NatCast σ] [Add σ] [Mul σ] [Div σ] [LE σ] [DecidableLE σ] [LT σ]
    [DecidableLT σ] (w : KeywordWeights σ) (es : Entries) (terms : List String) (topK : Nat)
    (flt : Filter) : List (Ranked σ) :=
  let terms := normalizeTerms terms
  if terms.isEmpty then []
  else
    rank topK ((es.fragments.filter fun f => flt.accepts f && matchesTerms f terms).map fun f =>
      ⟨f, w.score f terms⟩)

def isEntityNamed (name : String) (f : Fragment) : Bool :=
  f.kind == .entity && f.entityName.any fun e => e == name || Text.endsWith e ("." ++ name)

/-- Exact names first, then by path. -/
def entityNamed? (es : Entries) (name : String) : Option Fragment :=
  let found := (es.fragments.filter (isEntityNamed name)).mergeSort fun a b => a.filePath ≤ b.filePath
  ((found.filter (·.entityName == some name)) ++
    (found.filter (·.entityName != some name))).head?

def fragmentsOf (es : Entries) (name : String) : List Fragment :=
  (es.fragments.filter (·.entityName == some name)).mergeSort fun a b => a.startLine ≤ b.startLine

def referencing (es : Entries) (name : String) (topK : Nat) : List Fragment :=
  (((es.fragments.filter (·.references.contains name)).mergeSort
    fun a b => a.startLine ≤ b.startLine).mergeSort fun a b => a.filePath ≤ b.filePath).take topK

/-- By language, then entity, then path, then line; the last key is sorted by first, stably. -/
def listing (fs : List Fragment) : List Fragment :=
  (((fs.mergeSort fun a b => a.startLine ≤ b.startLine).mergeSort
    fun a b => a.filePath ≤ b.filePath).mergeSort
    fun a b => nameLe a.entityName b.entityName).mergeSort fun a b => a.language ≤ b.language

def listAll (es : Entries) (flt : Filter) : List Fragment :=
  listing (es.fragments.filter flt.accepts)

def deleteIf (gone : Fragment → Bool) (es : Entries) : Nat × Entries :=
  ((es.filter (gone ·.fragment)).length, es.filter (!gone ·.fragment))

def stats (es : Entries) : StoreStats where
  totalUnits := es.length
  byLanguage := tally (es.fragments.map (·.language))
  byKind := tally (es.fragments.map (·.kind.name))
  files := (distinct (es.fragments.map (·.filePath))).length
  embedded := (es.filter (·.vector.isSome)).length

end Entries

structure Memory where
  entries : Entries
  weights : KeywordWeights Float

namespace Memory

def empty (weights : KeywordWeights Float) : Memory := ⟨[], weights⟩

def upsert (m : Memory) (fragments : List Fragment) (vectors : Option (List Embedding)) :
    Outcome (Nat × Memory) :=
  (pairVectors fragments vectors).map fun pairs =>
    (fragments.length, { m with entries := m.entries.write pairs })

def deleteIf (m : Memory) (gone : Fragment → Bool) : Nat × Memory :=
  let (n, entries) := m.entries.deleteIf gone
  (n, { m with entries })

instance : Store Memory where
  upsert := upsert
  search m query topK flt floor := .ok (m.entries.search query topK flt floor)
  keywordSearch m terms topK flt := .ok (m.entries.keywordSearch m.weights terms topK flt)
  entityNamed? m name := .ok (m.entries.entityNamed? name)
  fragmentsOf m name := .ok (m.entries.fragmentsOf name)
  referencing m name topK := .ok (m.entries.referencing name topK)
  listAll m flt := .ok (m.entries.listAll flt)
  deletePath m path := .ok (m.deleteIf (·.filePath == path))
  deletePathLead m lead := .ok (m.deleteIf (Text.startsWith ·.filePath lead))
  count m := m.entries.length
  stats m := m.entries.stats

end Memory

end CodeRetrieval
