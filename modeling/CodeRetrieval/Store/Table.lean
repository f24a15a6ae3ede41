import CodeRetrieval.Distinct
import CodeRetrieval.Fragment.Encoding
import CodeRetrieval.Json.Printer
import CodeRetrieval.Json.Reader
import CodeRetrieval.Ranking.Keyword
import CodeRetrieval.Store.Basic
import CodeRetrieval.Store.Like

/-!
A store of two tables: one row for each fragment, and one for each vector. References and metadata
are kept as JSON text, so a row may hold what cannot be read back. Kinds and lines are compared as
they are stored.
-/

set_option autoImplicit false

namespace CodeRetrieval

structure Row where
  id : String
  content : String
  language : String
  kind : String
  filePath : String
  startLine : Int
  endLine : Int
  entityName : Option String
  memberName : Option String
  documentation : Option String
  referencesJson : String
  metadataJson : String
  indexedAt : Int
  deriving DecidableEq, Repr

structure VectorRow where
  fragmentId : String
  model : String
  dims : Nat
  bytes : List UInt8
  deriving DecidableEq, Repr

def toSigned (n : Nat) : Int := Int.bmod n UInt64.size

namespace Row

def ofFragment (f : Fragment) (now : Int) : Row where
  id := f.id
  content := f.content
  language := f.language
  kind := f.kind.name
  filePath := f.filePath
  startLine := toSigned f.startLine
  endLine := toSigned f.endLine
  entityName := f.entityName
  memberName := f.memberName
  documentation := f.documentation
  referencesJson := (Json.ofStrings f.references).compact
  metadataJson := (Json.obj f.metadata).compact
  indexedAt := now

/-- The fragment of a row. Metadata that cannot be read counts as empty, negative lines as zero. -/
def toFragment (r : Row) : Outcome Fragment :=
  match (Json.parse? r.referencesJson).bind Fragment.texts?, FragmentKind.ofName? r.kind with
  | none, _ =>
    .error (.context ("Corrupt references for unit " ++ r.id)
      (.plain "references are not a list of names"))
  | some _, none => .error (.plain ("unknown unit kind: " ++ r.kind))
  | some references, some kind => .ok {
      id := r.id
      content := r.content
      language := r.language
      kind
      filePath := r.filePath
      startLine := r.startLine.toNat
      endLine := r.endLine.toNat
      entityName := r.entityName
      memberName := r.memberName
      documentation := r.documentation
      references
      metadata := ((Json.parse? r.metadataJson).bind Json.fields?).getD [] }

def passes (flt : Filter) (r : Row) : Bool :=
  flt.kind.all (·.name == r.kind) && flt.language.all (r.language == ·)

def searched (r : Row) : List String :=
  [r.content] ++ r.entityName.toList ++ r.memberName.toList ++ r.documentation.toList

def isCandidate (terms : List String) (r : Row) : Bool :=
  terms.any fun t => r.searched.any fun column => Like.like column ("%" ++ Like.escape t ++ "%")

/-- Whether a row is the entity of a name, be it by its simple name. -/
def isEntityNamed (name : String) (r : Row) : Bool :=
  r.kind == FragmentKind.entity.name &&
    r.entityName.any fun e => e == name || Like.like e ("%." ++ Like.escape name)

def innerValues : Json → List Json
  | .arr items => items
  | .obj fields => fields.map (·.2)
  | v => [v]

/-- Whether the stored references contain a name; a text that is no JSON is a failure. -/
def refersTo (name : String) (r : Row) : Outcome Bool :=
  match Json.parse? r.referencesJson with
  | some v => .ok ((innerValues v).contains (.str name))
  | none =>
    .error (.context "error returned from database: (code: 1) malformed JSON"
      (.plain "(code: 1) malformed JSON"))

def listing (rows : List Row) : List Row :=
  (((rows.mergeSort fun a b => a.startLine ≤ b.startLine).mergeSort
    fun a b => a.filePath ≤ b.filePath).mergeSort
    fun a b => nameLe a.entityName b.entityName).mergeSort fun a b => a.language ≤ b.language

end Row

structure Table where
  rows : List Row
  vectors : List VectorRow
  weights : KeywordWeights Float
  model : String
  clock : Int

namespace Table

def empty (weights : KeywordWeights Float) (model : String) : Table := ⟨[], [], weights, model, 0⟩

def putRow (r : Row) : List Row → List Row
  | [] => [r]
  | x :: rest => if x.id = r.id then r :: rest else x :: putRow r rest

def putVector (v : VectorRow) : List VectorRow → List VectorRow
  | [] => [v]
  | x :: rest => if x.fragmentId = v.fragmentId then v :: rest else x :: putVector v rest

/-- Writes one fragment; without a vector the old one goes. -/
def put (t : Table) (f : Fragment) (vector : Option Embedding) : Table where
  rows := putRow (Row.ofFragment f t.clock) t.rows
  vectors := match vector with
    | some v => putVector ⟨f.id, t.model, v.length, Embedding.toBytes v⟩ t.vectors
    | none => t.vectors.filter (·.fragmentId != f.id)
  weights := t.weights
  model := t.model
  clock := t.clock

def upsert (t : Table) (fragments : List Fragment) (vectors : Option (List Embedding)) :
    Outcome (Nat × Table) :=
  (pairVectors fragments vectors).map fun pairs =>
    (fragments.length, pairs.foldl (fun acc (f, v) => acc.put f v) t)

def vectorOf? (t : Table) (id : String) : Option Embedding :=
  (t.vectors.find? (·.fragmentId == id)).map fun v => Embedding.ofBytes v.bytes

def search (t : Table) (query : Embedding) (topK : Nat) (flt : Filter) (floor : Float32) :
    Outcome (List (Ranked Float)) := do
  let near := (t.rows.filter (Row.passes flt)).filterMap fun r =>
    (t.vectorOf? r.id).bind fun v =>
      let s := Embedding.cosine query v
      if floor ≤ s then some (r, s.toFloat) else none
  let results ← near.mapM fun (r, s) => return (⟨← r.toFragment, s⟩ : Ranked Float)
  return rank topK results

def keywordSearch (t : Table) (terms : List String) (topK : Nat) (flt : Filter) :
    Outcome (List (Ranked Float)) :=
  let terms := normalizeTerms terms
  if terms.isEmpty then .ok []
  else do
    let rows := t.rows.filter fun r => r.passes flt && r.isCandidate terms
    let found ← rows.mapM Row.toFragment
    return rank topK ((found.filter (matchesTerms · terms)).map fun f =>
      ⟨f, t.weights.score f terms⟩)

def entityNamed? (t : Table) (name : String) : Outcome (Option Fragment) :=
  let found := (t.rows.filter (Row.isEntityNamed name)).mergeSort fun a b => a.filePath ≤ b.filePath
  match (found.filter (·.entityName == some name)) ++
      (found.filter (·.entityName != some name)) with
  | [] => .ok none
  | r :: _ => r.toFragment.map some

def fragmentsOf (t : Table) (name : String) : Outcome (List Fragment) :=
  (((t.rows.filter (·.entityName == some name)).mergeSort fun a b => a.id ≤ b.id).mergeSort
    fun a b => a.startLine ≤ b.startLine).mapM Row.toFragment

/-- By path, then line. Where nothing is asked for no row is looked at. -/
def referencing (t : Table) (name : String) (topK : Nat) : Outcome (List Fragment) :=
  if topK = 0 then .ok []
  else do
    let marked ← t.rows.mapM fun r => return (r, ← r.refersTo name)
    let found := (marked.filter (·.2)).map (·.1)
    (((found.mergeSort fun a b => a.startLine ≤ b.startLine).mergeSort
      fun a b => a.filePath ≤ b.filePath).take topK).mapM Row.toFragment

def listAll (t : Table) (flt : Filter) : Outcome (List Fragment) :=
  (Row.listing (t.rows.filter (Row.passes flt))).mapM Row.toFragment

def deleteIf (t : Table) (gone : Row → Bool) : Nat × Table :=
  let ids := (t.rows.filter gone).map (·.id)
  (ids.length,
    { t with
      rows := t.rows.filter (!gone ·)
      vectors := t.vectors.filter fun v => !ids.contains v.fragmentId })

def stats (t : Table) : StoreStats where
  totalUnits := t.rows.length
  byLanguage := tally (t.rows.map (·.language))
  byKind := tally (t.rows.map (·.kind))
  files := (distinct (t.rows.map (·.filePath))).length
  embedded := (t.vectors.filter fun v => t.rows.any (·.id == v.fragmentId)).length

/-- SQL's `length` of a text: the characters before the first NUL. -/
def sqlLength (s : String) : Nat := (s.toList.takeWhile (· != '\x00')).length

/-- SQL's `substr(path, 1, length(lead)) = lead`. -/
def isUnder (lead path : String) : Bool := Text.take (sqlLength lead) path == lead

def lastIndexedAt? (t : Table) : Option Int := (t.rows.map (·.indexedAt)).max?

/-- A stored column with the value to put there. -/
inductive Column where
  | references (json : String)
  | metadata (json : String)
  | kind (name : String)
  | startLine (n : Int)
  | endLine (n : Int)
  deriving DecidableEq, Repr

def Column.set (r : Row) : Column → Row
  | references json => { r with referencesJson := json }
  | metadata json => { r with metadataJson := json }
  | kind name => { r with kind := name }
  | startLine n => { r with startLine := n }
  | endLine n => { r with endLine := n }

def overwrite (t : Table) (id : Option String) (column : Column) : Table :=
  { t with rows := t.rows.map fun r => if id.all (· == r.id) then column.set r else r }

def markWritten (t : Table) (time : Int) : Table :=
  { t with rows := t.rows.map fun r => { r with indexedAt := time } }

instance : Store Table where
  upsert := upsert
  search := search
  keywordSearch := keywordSearch
  entityNamed? := entityNamed?
  fragmentsOf := fragmentsOf
  referencing := referencing
  listAll := listAll
  deletePath t path := .ok (t.deleteIf (·.filePath == path))
  deletePathLead t lead := .ok (t.deleteIf (isUnder lead ·.filePath))
  count t := t.rows.length
  stats := stats

end Table

end CodeRetrieval
