import CodeRetrieval.Store.Table

set_option autoImplicit false

namespace CodeRetrieval

inductive Database where
  | blank
  | ready (t : Table)

namespace Database

def failure (text : String) : Failure :=
  .context ("error returned from database: " ++ text) (.plain text)

def noTable : Failure := failure "(code: 1) no such table: units"

def read {α : Type} (db : Database) (step : Table → Outcome α) : Outcome α :=
  match db with
  | blank => .error noTable
  | ready t => step t

def write (db : Database) (step : Table → Outcome (Nat × Table)) : Outcome (Nat × Database) :=
  db.read fun t => (step t).map fun (n, t) => (n, ready t)

instance : Store Database where
  upsert db fragments vectors := do
    let _ ← pairVectors fragments vectors
    if fragments.isEmpty then return (0, db) else db.write (·.upsert fragments vectors)
  search db query topK flt floor := db.read (·.search query topK flt floor)
  keywordSearch db terms topK flt :=
    if (normalizeTerms terms).isEmpty then .ok [] else db.read (·.keywordSearch terms topK flt)
  entityNamed? db name := db.read (·.entityNamed? name)
  fragmentsOf db name := db.read (·.fragmentsOf name)
  referencing db name topK := db.read (·.referencing name topK)
  listAll db flt := db.read (·.listAll flt)
  deletePath db path := db.write fun t => Store.deletePath t path
  deletePathLead db lead := db.write fun t => Store.deletePathLead t lead
  count
    | blank => 0
    | ready t => Store.count t
  stats
    | blank => ⟨0, [], [], 0, 0⟩
    | ready t => t.stats

def withSettings (weights : KeywordWeights Float) (model : String) (clock : Int) :
    Database → Database
  | blank => blank
  | ready t => ready { t with weights, model, clock }

def migrate (weights : KeywordWeights Float) : Database → Database
  | blank => ready (Table.empty weights "unknown")
  | ready t => ready t

end Database

namespace Row

def toJson (r : Row) : Json := .arr [
  .str r.id, .str r.content, .str r.language, .str r.kind, .str r.filePath,
  .num (.whole r.startLine), .num (.whole r.endLine), .ofText? r.entityName,
  .ofText? r.memberName, .ofText? r.documentation, .str r.referencesJson, .str r.metadataJson,
  .num (.whole r.indexedAt)]

def ofJson? (v : Json) : Option Row :=
  match v with
  | .arr [.str id, .str content, .str language, .str kind, .str filePath,
      .num (.whole startLine), .num (.whole endLine), entityName, memberName, documentation,
      .str referencesJson, .str metadataJson, .num (.whole indexedAt)] => some {
      id, content, language, kind, filePath, startLine, endLine
      entityName := entityName.text?
      memberName := memberName.text?
      documentation := documentation.text?
      referencesJson, metadataJson, indexedAt }
  | _ => none

end Row

namespace VectorRow

def toJson (v : VectorRow) : Json := .arr [
  .str v.fragmentId, .str v.model, .ofNat v.dims, .arr (v.bytes.map fun b => .ofNat b.toNat)]

def byte? (v : Json) : Option UInt8 := v.nat?.map UInt8.ofNat

def ofJson? (v : Json) : Option VectorRow :=
  match v with
  | .arr [.str fragmentId, .str model, dims, .arr bytes] => do
    return { fragmentId, model, dims := ← dims.nat?, bytes := ← bytes.mapM byte? }
  | _ => none

end VectorRow

namespace Database

def fileText : Database → String
  | blank => Json.null.compact
  | ready t => (Json.obj [("units", .arr (t.rows.map Row.toJson)),
      ("vectors", .arr (t.vectors.map VectorRow.toJson))]).compact

def tables? (weights : KeywordWeights Float) (v : Json) : Option Table := do
  let rows ← (← (← v.field? "units").items?).mapM Row.ofJson?
  let vectors ← (← (← v.field? "vectors").items?).mapM VectorRow.ofJson?
  return { Table.empty weights "unknown" with rows, vectors }

def ofFileText? (weights : KeywordWeights Float) (text : String) : Option Database :=
  if text.isEmpty then some blank
  else
    match Json.parse? text with
    | some .null => some blank
    | some v => (tables? weights v).map ready
    | none => none

end Database

end CodeRetrieval
