import CodeRetrieval.Command.Run

/-!
The command line program. It reads the files that a command may look at, runs the command on them,
and writes back the files that have changed. There is no network here: services are configured, but
none is reached.
-/

set_option autoImplicit false

namespace CodeRetrieval.Program

def placeOf (here : FilePath) (path : String) : FilePath :=
  let start := if FilePath.isFromTop path then [] else here
  (FilePath.names path).foldl (fun place name =>
    if name = "" ∨ name = "." then place
    else if name = ".." then place.dropLast
    else place ++ [name]) start

def pathOf (place : FilePath) : String := "/" ++ place.text

def entryIn (directory name : String) : IO.FS.DirEntry := ⟨directory, name⟩

def loadFile (t : FileTree) (place : FilePath) : IO FileTree := do
  try
    return t.put place (.file (← IO.FS.readBinFile (pathOf place)))
  catch _ => return t

partial def loadBelow (followLinks : Bool) (t : FileTree) (place : FilePath) : IO FileTree := do
  let entries ← try (entryIn (pathOf place) ".").path.readDir catch _ => pure #[]
  let mut t := t.put place .directory
  for e in entries do
    let below := place ++ [e.fileName]
    match (← e.path.symlinkMetadata).type with
    | .dir => t ← loadBelow followLinks t below
    | .file => t ← loadFile t below
    | .symlink =>
      if followLinks then
        let target ← try pure (some (← IO.FS.realPath e.path).toString) catch _ => pure none
        match target with
        | none => t := t.put below (.link "")
        | some target =>
          t := t.put below (.link target)
          let goal := placeOf [] target
          if (t.get? goal).isNone then
            t ← if ← (entryIn target ".").path.isDir then loadBelow followLinks t goal
              else loadFile t goal
    | .other => pure ()
  return t

def load (here : FilePath) (i : Invocation) : IO FileTree := do
  let place := placeOf here i.settings
  let t ← loadFile .empty place
  let text := match t.readText here i.settings with
    | .ok text => text
    | .error _ => Settings.standard.text
  match Settings.parse text with
  | .error _ => return t
  | .ok s =>
    let t ← loadFile t (placeOf here s.databasePath)
    match i.command with
    | .index .. => loadBelow s.index.followSymlinks t (placeOf here s.index.root)
    | _ => return t

def save (before after : FileTree) : IO Unit := do
  for (place, e) in after.entries do
    match e with
    | .file bytes =>
      let same := match before.get? place with
        | some (.file old) => old == bytes
        | _ => false
      unless same do
        IO.FS.createDirAll (pathOf place.dropLast)
        IO.FS.writeBinFile (pathOf place) bytes
    | _ => pure ()

/-- The time in seconds, as the system notes it for a process that is looked at. -/
def now : IO Int := do
  try
    return (← (entryIn "/proc" "self").path.metadata).modified.sec
  catch _ => return 0

partial def readAll (input : IO.FS.Stream) (text : String) : IO String := do
  let line ← input.getLine
  if line.isEmpty then return text else readAll input (text ++ line)

def run (words : List String) : IO UInt32 := do
  let here := placeOf [] (← IO.currentDir).toString
  let files ← match Arguments.read words with
    | .ok i => load here i
    | .error _ => pure .empty
  let stdin ← match Arguments.read words with
    | .ok ⟨_, .chat _⟩ => readAll (← IO.getStdin) ""
    | _ => pure ""
  let surroundings : Surroundings := {
    here
    network := .unreachable
    key := ← IO.getEnv "OPENAI_API_KEY"
    now := ← now
    terminal := ← (← IO.getStderr).isTty
    stdin }
  let (code, desk) := runWords surroundings files words
  save files desk.files
  (← IO.getStdout).putStr desk.stdout
  (← IO.getStderr).putStr desk.stderr
  return code.toUInt32

end CodeRetrieval.Program

def main (words : List String) : IO UInt32 := CodeRetrieval.Program.run words
