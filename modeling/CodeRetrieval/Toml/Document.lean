import CodeRetrieval.Toml.Scalar

set_option autoImplicit false

namespace CodeRetrieval.Toml

open Json (Reader)

def skipGaps : Nat → List Char → List Char
  | 0, s => s
  | fuel + 1, s =>
    match skipComment (skipSpace s) with
    | '\n' :: rest => skipGaps fuel rest
    | '\r' :: '\n' :: rest => skipGaps fuel rest
    | rest => rest

def gaps (s : List Char) : List Char := skipGaps (s.length + 1) s

def readArrayItems (value : Reader Toml) : Nat → Reader (List Toml)
  | 0, _ => none
  | fuel + 1, s =>
    match gaps s with
    | ']' :: rest => some ([], rest)
    | s => do
      let (v, s) ← value s
      match gaps s with
      | ',' :: s => do
        let (vs, s) ← readArrayItems value fuel s
        some (v :: vs, s)
      | ']' :: s => some ([v], s)
      | _ => none

def readKeyValue (value : Reader Toml) : Reader (List String × Toml) := fun s => do
  let (key, s) ← readKey s
  match skipSpace s with
  | '=' :: s => do
    let (v, s) ← value (skipSpace s)
    some ((key, v), s)
  | _ => none

def Draft.putKey (key : List String) (v : Toml) (d : Draft) : Option Draft :=
  match key.getLast? with
  | none => none
  | some last => d.put key.dropLast last v

def readInlineEntries (value : Reader Toml) : Nat → Draft → Reader Draft
  | 0, _, _ => none
  | fuel + 1, d, s => do
    let ((key, v), s) ← readKeyValue value s
    let d ← d.putKey key v
    match skipSpace s with
    | ',' :: s => readInlineEntries value fuel d s
    | '\x7d' :: s => some (d, s)
    | _ => none

def readInlineTable (value : Reader Toml) : Reader Toml := fun s =>
  match skipSpace s with
  | '\x7d' :: rest => some (.table [], rest)
  | s => (readInlineEntries value (s.length + 1) (.new .header) s).map fun (d, rest) =>
    (.table d.finish, rest)

def readValue : Nat → Reader Toml
  | 0, _ => none
  | _ + 1, [] => none
  | depth + 1, c :: s =>
    if c = '[' then
      if depth = 0 then none
      else (readArrayItems (readValue depth) (s.length + 1) s).map fun (vs, rest) => (.arr vs, rest)
    else if c = '\x7b' then
      if depth = 0 then none else readInlineTable (readValue depth) s
    else readScalar (c :: s)

def endLine (s : List Char) : Option (List Char) :=
  match skipComment (skipSpace s) with
  | [] => some []
  | s => newline? s

structure Reading where
  root : Draft
  current : Draft
  path : List String
  isElement : Bool

def Reading.close (r : Reading) : Option Draft :=
  match r.path.getLast? with
  | none => some r.current
  | some key =>
    Draft.modify false (fun parent =>
      if r.isElement then
        match parent.entries.lookup key with
        | some (.tables elements) =>
          some (parent.set key (.tables (elements ++ [r.current.entries])))
        | some _ => none
        | none => some (parent.set key (.tables [r.current.entries]))
      else some (parent.set key (.table r.current.origin r.current.entries)))
      r.path.dropLast r.root

/-- Opens the next element of an array of tables. -/
def openElement (path : List String) (root : Draft) : Option Reading :=
  match path.getLast? with
  | none => none
  | some key => do
    let root ← Draft.modify false (fun parent =>
      match parent.entries.lookup key with
      | some (.tables _) => some parent
      | some _ => none
      | none => some (parent.set key (.tables []))) path.dropLast root
    some ⟨root, .new .header, path, true⟩

def Draft.at? : List String → Draft → Option Draft
  | [], d => some d
  | key :: path, d =>
    match d.entries.lookup key with
    | some (.table origin entries) => Draft.at? path ⟨origin, entries⟩
    | some (.tables elements) => elements.getLast?.bind fun last => Draft.at? path ⟨.header, last⟩
    | _ => none

/-- Opens a table. One that was only named on the way to others keeps what it holds. -/
def openTable (path : List String) (root : Draft) : Option Reading :=
  match path.getLast? with
  | none => none
  | some key => do
    let root ← Draft.modify false some path.dropLast root
    let parent ← Draft.at? path.dropLast root
    match parent.entries.lookup key with
    | none => some ⟨root, .new .header, path, false⟩
    | some (.table origin entries) =>
      if origin.implicit && !origin.dotted then
        let root ← Draft.modify false (fun p => some (p.erase key)) path.dropLast root
        some ⟨root, ⟨.header, entries⟩, path, false⟩
      else none
    | some _ => none

/-- Reads one line of a document; `none` if it is not well-formed. -/
def readLine (r : Reading) (s : List Char) : Option (Reading × List Char) :=
  match skipSpace s with
  | '[' :: '[' :: s => do
    let (path, s) ← readKey s
    let ']' :: ']' :: s := s | none
    let s ← endLine s
    some (← openElement path (← r.close), s)
  | '[' :: s => do
    let (path, s) ← readKey s
    let ']' :: s := s | none
    let s ← endLine s
    some (← openTable path (← r.close), s)
  | s =>
    match endLine s with
    | some rest => some (r, rest)
    | none => do
      let ((key, v), s) ← readKeyValue (readValue maxDepth) s
      let s ← endLine s
      some ({ r with current := ← r.current.putKey key v }, s)

def readLines : Nat → Reading → List Char → Option Reading
  | 0, _, _ => none
  | _ + 1, r, [] => some r
  | fuel + 1, r, c :: s => do
    let (r, rest) ← readLine r (c :: s)
    readLines fuel r rest

def parse? (text : String) : Option (List (String × Toml)) :=
  let s := match text.toList with
    | '\ufeff' :: rest => rest
    | s => s
  (readLines (s.length + 1) ⟨.new .header, .new .header, [], false⟩ s).bind fun r =>
    r.close.map Draft.finish

end CodeRetrieval.Toml
