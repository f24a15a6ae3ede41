import CodeRetrieval.Json.Value

set_option autoImplicit false

namespace CodeRetrieval

inductive Toml where
  | str (s : String)
  | int (n : Int)
  | float (bits : UInt64)
  | bool (b : Bool)
  | datetime (text : String)
  | arr (items : List Toml)
  | table (entries : List (String × Toml))
  deriving Repr

namespace Toml

instance : Inhabited Toml := ⟨.bool false⟩

def isTable : Toml → Bool
  | .table _ => true
  | _ => false

def holdsTable : Toml → Bool
  | .arr items => items.any isTable
  | _ => false

structure Origin where
  implicit : Bool
  dotted : Bool
  deriving DecidableEq, Repr

def Origin.header : Origin := ⟨false, false⟩

inductive Node where
  | value (v : Toml)
  | table (origin : Origin) (entries : List (String × Node))
  | tables (elements : List (List (String × Node)))

structure Draft where
  origin : Origin
  entries : List (String × Node)

namespace Draft

def new (origin : Origin) : Draft := ⟨origin, []⟩

def setEntry (key : String) (n : Node) : List (String × Node) → List (String × Node)
  | [] => [(key, n)]
  | (k, m) :: rest => if k = key then (k, n) :: rest else (k, m) :: setEntry key n rest

def set (d : Draft) (key : String) (n : Node) : Draft := ⟨d.origin, setEntry key n d.entries⟩

def erase (d : Draft) (key : String) : Draft := ⟨d.origin, d.entries.filter (·.1 != key)⟩

/-- Changes the table at a path, naming tables on the way. A table with a header of its own cannot
be reached by a dotted key; of an array of tables the last one is meant. -/
def modify (dotted : Bool) (f : Draft → Option Draft) : List String → Draft → Option Draft
  | [], d => f d
  | key :: path, d =>
    match d.entries.lookup key with
    | none => do
      let sub ← modify dotted f path (.new ⟨true, dotted⟩)
      some (d.set key (.table sub.origin sub.entries))
    | some (.value _) => none
    | some (.table origin entries) =>
      if dotted && !origin.implicit then none
      else do
        let sub ← modify dotted f path ⟨origin, entries⟩
        some (d.set key (.table sub.origin sub.entries))
    | some (.tables elements) =>
      match elements.getLast? with
      | none => none
      | some last => do
        let sub ← modify dotted f path ⟨.header, last⟩
        some (d.set key (.tables (elements.dropLast ++ [sub.entries])))

def put (path : List String) (key : String) (v : Toml) (d : Draft) : Option Draft :=
  modify true (fun t =>
    if t.origin.dotted == path.isEmpty then none
    else if (t.entries.lookup key).isSome then none
    else some (t.set key (.value v))) path d

end Draft

mutual

def Node.finish : Node → Toml
  | .value v => v
  | .table _ entries => .table (Json.orderFields (finishEntries entries))
  | .tables elements => .arr (finishTables elements)

def finishEntries : List (String × Node) → List (String × Toml)
  | [] => []
  | (k, n) :: rest => (k, n.finish) :: finishEntries rest

def finishTables : List (List (String × Node)) → List Toml
  | [] => []
  | entries :: rest => .table (Json.orderFields (finishEntries entries)) :: finishTables rest

end

def Draft.finish (d : Draft) : List (String × Toml) := Json.orderFields (finishEntries d.entries)

end Toml

end CodeRetrieval
