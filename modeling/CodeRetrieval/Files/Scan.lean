import CodeRetrieval.Artifact
import CodeRetrieval.Failure
import CodeRetrieval.Files.Glob
import CodeRetrieval.Files.Tree
import CodeRetrieval.Settings.Basic

set_option autoImplicit false

namespace CodeRetrieval

inductive Sight where
  | file (path : FilePath) (bytes : ByteArray)
  | unreadable

namespace FileTree

/-- What lies below a directory, down to a depth. Links are passed over unless they are to be
followed; `inside` are the directories that the walk is in. -/
def walk (t : FileTree) (followLinks : Bool) :
    Nat → List FilePath → FilePath → FilePath → List Sight
  | 0, _, _, _ => []
  | depth + 1, inside, here, path =>
    (t.children here).flatMap fun (name, e) =>
      match e with
      | .file bytes => [.file (path ++ [name]) bytes]
      | .directory =>
        walk t followLinks depth ((here ++ [name]) :: inside) (here ++ [name]) (path ++ [name])
      | .link _ =>
        if followLinks then
          match t.follow maxLinks here [name] with
          | .error _ => [.unreadable]
          | .ok place =>
            match t.get? place with
            | some (.file bytes) => [.file (path ++ [name]) bytes]
            | some .directory =>
              if inside.contains place then [.unreadable]
              else walk t followLinks depth (place :: inside) place (path ++ [name])
            | _ => [.unreadable]
        else []

/-- All that a walk from a directory comes upon. No walk is deeper than there are entries, because
it never enters a directory that it is in. -/
def sights (t : FileTree) (followLinks : Bool) (start : FilePath) : List Sight :=
  t.walk followLinks (t.entries.length + 1) [start] start []

end FileTree

structure Scan where
  artifacts : List Artifact
  unreadable : Nat
  deriving DecidableEq, Repr

namespace Scan

def standardGlobs : List String :=
  ["**/.*/**", "**/target/**", "**/node_modules/**", "**/build/**"]

def readGlob (glob : String) : Outcome (List Glob.Token) :=
  (Glob.read glob).mapError fun f =>
    .plain ("error parsing glob '" ++ glob ++ "': " ++ f.message)

def artifact? (globs : List (List Glob.Token)) : Sight → Except Unit (Option Artifact)
  | .unreadable => .error ()
  | .file path bytes =>
    let name := Text.replace "\\" "/" path.text
    if globs.any (Glob.covers · name) || (ArtifactKind.ofPath? name).isNone then .ok none
    else
      match FileTree.decode bytes with
      | .ok text => .ok (some (.new name text))
      | .error _ => .error ()

def ofSights (globs : List (List Glob.Token)) (sights : List Sight) : Scan :=
  let found := sights.map (artifact? globs)
  { artifacts :=
      (found.filterMap fun r => r.toOption.join).mergeSort fun a b => a.path ≤ b.path
    unreadable := (found.filter fun r => r.toOption.isNone).length }

def ofTree (t : FileTree) (here : FilePath) (s : IndexSettings) : Outcome Scan :=
  match t.locate here s.root with
  | .error _ => .error (.plain ("Index root does not exist: " ++ s.root))
  | .ok start => do
    let globs ← (standardGlobs ++ s.excludeGlobs).mapM readGlob
    return ofSights globs (t.sights s.followSymlinks start)

end Scan

end CodeRetrieval
