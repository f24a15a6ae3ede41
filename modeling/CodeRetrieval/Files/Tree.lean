/-!
Files and directories as a value: what stands under each path, and how a path that goes through links
is followed. A tree is a list of entries by their paths from the top; the top itself is always a
directory.
-/

set_option autoImplicit false

namespace CodeRetrieval

abbrev FilePath := List String

namespace FilePath

def names (text : String) : List String :=
  (text.split (· == '/')).toList.map (·.toString)

def isFromTop (text : String) : Bool := text.startsWith "/"

def text (p : FilePath) : String := "/".intercalate p

end FilePath

inductive FileEntry where
  | file (bytes : ByteArray)
  | link (target : String)
  | directory

inductive FileFault where
  | missing
  | notDirectory
  | isDirectory
  | tooManyLinks
  | taken
  | notText
  deriving DecidableEq, Repr

def FileFault.message : FileFault → String
  | missing => "No such file or directory (os error 2)"
  | notDirectory => "Not a directory (os error 20)"
  | isDirectory => "Is a directory (os error 21)"
  | tooManyLinks => "Too many levels of symbolic links (os error 40)"
  | taken => "File exists (os error 17)"
  | notText => "stream did not contain valid UTF-8"

structure FileTree where
  entries : List (FilePath × FileEntry)

namespace FileTree

def empty : FileTree := ⟨[]⟩

def get? (t : FileTree) (p : FilePath) : Option FileEntry :=
  if p.isEmpty then some .directory else t.entries.lookup p

def children (t : FileTree) (p : FilePath) : List (String × FileEntry) :=
  t.entries.filterMap fun (q, e) =>
    match q.getLast? with
    | some name => if q.dropLast = p then some (name, e) else none
    | none => none

def withDirectories (t : FileTree) (p : FilePath) : FileTree :=
  (List.range p.length).foldl (fun acc n =>
    let q := p.take n
    if (acc.get? q).isSome then acc else ⟨acc.entries ++ [(q, .directory)]⟩) t

def remove (t : FileTree) (p : FilePath) : FileTree :=
  ⟨t.entries.filter fun (q, _) => q.take p.length != p⟩

def put (t : FileTree) (p : FilePath) (e : FileEntry) : FileTree :=
  match e with
  | .directory => t.withDirectories (p ++ [""])
  | _ => ⟨((t.remove p).withDirectories p).entries ++ [(p, e)]⟩

def maxLinks : Nat := 40

/-- The place to which names lead from a directory, all links followed. -/
def follow (t : FileTree) (links : Nat) (here : FilePath) : List String → Except FileFault FilePath
  | [] => .ok here
  | name :: rest =>
    if name = "" ∨ name = "." then follow t links here rest
    else if name = ".." then follow t links here.dropLast rest
    else
      match t.get? (here ++ [name]) with
      | none => .error .missing
      | some .directory => follow t links (here ++ [name]) rest
      | some (.file _) => if rest.isEmpty then .ok (here ++ [name]) else .error .notDirectory
      | some (.link target) =>
        if links = 0 then .error .tooManyLinks
        else
          follow t (links - 1) (if FilePath.isFromTop target then [] else here)
            (FilePath.names target ++ rest)
  termination_by names => (links, names.length)
  decreasing_by all_goals simp_wf; grind

def locate (t : FileTree) (here : FilePath) (path : String) : Except FileFault FilePath :=
  if path.isEmpty then .error .missing
  else
    t.follow maxLinks (if FilePath.isFromTop path then [] else here) (FilePath.names path)

/-- The names of a path up to the last slash, and the name behind it; no names at all where there is
no slash. -/
def splitLast (path : String) : Option String × String :=
  match (FilePath.names path).reverse with
  | [] => (none, "")
  | [name] => (none, name)
  | name :: rest => (some (if rest = [""] then "/" else FilePath.text rest.reverse), name)

def makeNames (t : FileTree) (here : FilePath) : List String → Except FileFault (FileTree × FilePath)
  | [] => .ok (t, here)
  | name :: rest =>
    match t.follow maxLinks here [name] with
    | .ok place =>
      match t.get? place with
      | some (.file _) => .error (if rest.isEmpty then .taken else .notDirectory)
      | _ => makeNames t place rest
    | .error .missing =>
      let place := here ++ [name]
      makeNames (t.put place .directory) place rest
    | .error fault => .error fault

def makeDirectories (t : FileTree) (here : FilePath) (path : String) :
    Except FileFault (FileTree × FilePath) :=
  makeNames t (if FilePath.isFromTop path then [] else here) (FilePath.names path)

def placeIn (t : FileTree) (directory : FilePath) (name : String) : FilePath :=
  match t.follow maxLinks directory [name] with
  | .ok place => place
  | .error _ => directory ++ [name]

def readBytes (t : FileTree) (here : FilePath) (path : String) : Except FileFault ByteArray := do
  match t.get? (← t.locate here path) with
  | some (.file bytes) => return bytes
  | some .directory => throw .isDirectory
  | _ => throw .missing

def decode (bytes : ByteArray) : Except FileFault String :=
  match String.fromUTF8? bytes with
  | some text => .ok text
  | none => .error .notText

def readText (t : FileTree) (here : FilePath) (path : String) : Except FileFault String := do
  decode (← t.readBytes here path)

end FileTree

end CodeRetrieval
