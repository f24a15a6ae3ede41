import CodeRetrieval.Command.Chat
import CodeRetrieval.Service.Generation
import CodeRetrieval.Settings.Document
import CodeRetrieval.Source.Grammar.File
import CodeRetrieval.Source.Outline
import CodeRetrieval.Store.Database

/-!
What the commands do: each reads the settings, opens the database, changes files and prints. A failure
is reported on the error stream, and what has been done by then stays done.
-/

set_option autoImplicit false

namespace CodeRetrieval

structure Surroundings where
  here : FilePath
  network : Network
  key : Option String
  now : Int
  terminal : Bool
  stdin : String

structure Desk where
  files : FileTree
  stdout : String
  stderr : String

abbrev CommandRun := ExceptT Failure (StateM Desk)

namespace CommandRun

def ofOutcome {α : Type} (o : Outcome α) : CommandRun α := ExceptT.mk (pure o)

def fail {α : Type} (f : Failure) : CommandRun α := ofOutcome (.error f)

def print (text : String) : CommandRun Unit :=
  modify fun d => { d with stdout := d.stdout ++ text }

def printError (text : String) : CommandRun Unit :=
  modify fun d => { d with stderr := d.stderr ++ text }

def files : CommandRun FileTree := return (← get).files

def setFiles (t : FileTree) : CommandRun Unit := modify fun d => { d with files := t }

def onFiles {α : Type} (failure : Failure → Failure) (step : FileTree → Except FileFault α) :
    CommandRun α := do
  match step (← files) with
  | .ok x => return x
  | .error fault => fail (failure (.plain fault.message))

def perform {α : Type} (mode : ProgressMode) (r : Run α) : CommandRun α := do
  let (result, trace) := r.result .empty
  printError (Text.join "" (trace.statuses.map (Status.line mode)))
  ofOutcome result

end CommandRun

open CommandRun

def makePlace (here : FilePath) (path : String) (failure : String → Failure → Failure) :
    CommandRun FilePath := do
  match FileTree.splitLast path with
  | (none, name) => return (← files).placeIn here name
  | (some parent, name) =>
    let (t, directory) ← onFiles (failure parent) (FileTree.makeDirectories · here parent)
    setFiles t
    return t.placeIn directory name

namespace Settings

def load (here : FilePath) (path : String) : CommandRun Settings := do
  let text ← onFiles (.context ("Failed to read config file: " ++ path))
    (FileTree.readText · here path)
  ofOutcome (parse text)

def writeStandard (here : FilePath) (path : String) : CommandRun Unit := do
  match (← files).locate here path with
  | .ok _ => return
  | .error _ =>
    let place ← makePlace here path fun _ f => f
    setFiles ((← files).put place (.file standard.text.toUTF8))
    print ("Wrote default config to " ++ path ++ "\n")

end Settings

namespace Database

def openFailure (path text : String) : Failure :=
  .context ("Failed to open database: " ++ path) (failure text)

def saveAt (place : FilePath) (db : Database) : CommandRun Unit := do
  setFiles ((← files).put place (.file db.fileText.toUTF8))

/-- Opens the database of the settings; where there is no file, one without tables is made. -/
def openFor (c : Surroundings) (s : Settings) : CommandRun (FilePath × Database) := do
  let path := s.databasePath
  let place ← makePlace c.here path fun parent f =>
    .context ("Failed to create database directory: " ++ parent) f
  match (← files).get? place with
  | some (.file bytes) =>
    match (String.fromUTF8? bytes).bind (ofFileText? s.retrieval.weights) with
    | some db => return (place, db)
    | none => fail (openFailure path "(code: 26) file is not a database")
  | some .directory => fail (openFailure path "(code: 14) unable to open database file")
  | _ =>
    saveAt place blank
    return (place, blank)

end Database

namespace Command

/-- Source files are read by the grammar, and by their outline where that fails. -/
def reader : Source.Reader := Source.Grammar.read.orElse Source.Outline.read

def defaultMode (c : Surroundings) : ProgressMode := if c.terminal then .human else .off

def runInit (c : Surroundings) (s : Settings) : CommandRun Unit := do
  let (place, db) ← Database.openFor c s
  Database.saveAt place (db.migrate s.retrieval.weights)
  print "Database initialized successfully.\n"

def runIndex (c : Surroundings) (s : Settings) (o : IndexOptions) (mode : ProgressMode) :
    CommandRun Unit := do
  let (place, db) ← Database.openFor c s
  let db := db.migrate s.retrieval.weights
  Database.saveAt place db
  let e ← ofOutcome (s.embedding.embedder c.network c.key)
  let db := db.withSettings s.retrieval.weights e.model c.now
  let (summary, after) := (Index.run s (← files) c.here e reader o).result db
  Database.saveAt place after.store
  printError (Text.join "" (after.events.map (IndexEvent.line mode)))
  print (Report.indexSummary s.index.root o.dryRun s.embedding.isEnabled (← ofOutcome summary))

def retriever (c : Surroundings) (s : Settings) : CommandRun (Retriever Database) := do
  let (_, db) ← Database.openFor c s
  let e ← ofOutcome (s.embedding.embedder c.network c.key)
  let g ← ofOutcome (s.generation.generator c.network c.key)
  return ⟨db.withSettings s.retrieval.weights e.model c.now, e, g, s.retriever⟩

def kindOf (name : String) : Outcome FragmentKind :=
  match FragmentKind.ofName? name with
  | some k => .ok k
  | none => .error (.plain ("Unknown kind '" ++ name ++ "'. Must be one of: " ++
      Text.join ", " (FragmentKind.all.map (·.name))))

def queryOptions (f : QueryFlags) : Outcome QueryOptions := do
  let kind ← match f.kind with
    | some name => (kindOf name).map some
    | none => .ok none
  return {
    topK := f.topK
    kind
    language := f.language
    useHybrid := if f.noHybrid then some false else none }

def queryMode (c : Surroundings) (f : QueryFlags) : ProgressMode :=
  f.progress.getD (if f.json then .off else defaultMode c)

def printAnswer (asJson : Bool) (a : Answer) : CommandRun Unit :=
  print (if asJson then Report.json (a.toJson .ofShortest) else Report.answer a)

def printRetrieval (asJson : Bool) (r : Retrieval) : CommandRun Unit :=
  print (if asJson then Report.json (r.toJson .ofShortest) else Report.retrieval r)

def emptyQuestion : Failure := .plain "question must not be empty"

def runQuery (c : Surroundings) (s : Settings) (question : String) (f : QueryFlags)
    (retrieveOnly : Bool) : CommandRun Unit := do
  if Text.isBlankText question then fail emptyQuestion
  let o ← ofOutcome (queryOptions f)
  let r ← retriever c s
  let mode := queryMode c f
  if retrieveOnly then printRetrieval f.json (← perform mode (r.retrieve question o))
  else printAnswer f.json (← perform mode (r.query question o))

def runChat (c : Surroundings) (s : Settings) (f : QueryFlags) : CommandRun Unit := do
  let r ← retriever c s
  let o ← ofOutcome (queryOptions f)
  let chat := (Chat.new s.maxTurns).run r o (queryMode c f) (Text.lines c.stdin)
  print chat.stdout
  printError chat.stderr

def runLookup (c : Surroundings) (s : Settings) (name : String) (asJson : Bool) :
    CommandRun Unit := do
  let r ← retriever c s
  printAnswer asJson (← perform (if asJson then .off else defaultMode c) (r.lookup name))

def runDeps (c : Surroundings) (s : Settings) (target : String) (asJson : Bool) :
    CommandRun Unit := do
  let r ← retriever c s
  printAnswer asJson
    (← perform (if asJson then .off else defaultMode c) (r.configDependencies target))

def runStats (c : Surroundings) (s : Settings) : CommandRun Unit := do
  let (place, db) ← Database.openFor c s
  let t ← ofOutcome (db.read .ok)
  let size := match (← files).get? place with
    | some (.file bytes) => bytes.size
    | _ => 0
  print (Report.stats s.databasePath size c.now t.lastIndexedAt? t.stats)

def bindFault (address : String) : String :=
  match Text.cutLastBy? (· == ':') address with
  | none => "invalid socket address"
  | some (_, number) =>
    if (Arguments.number? number).any (· < 65536) then Network.unreachableMessage
    else "invalid port value"

def runServe (c : Surroundings) (s : Settings) (bind : Option String) : CommandRun Unit := do
  let _ ← retriever c s
  let address := bind.getD s.bind
  print ("chx server listening on http://" ++ address ++ "\n")
  fail (.plain (bindFault address))

def names : List String :=
  ["init", "index", "query", "chat", "lookup", "deps", "stats", "serve", "completions"]

def completionLine (shell : String) : String :=
  let words := Text.join " " names
  match shell with
  | "bash" => "complete -W '" ++ words ++ "' chx\n"
  | "fish" => "complete -c chx -f -a '" ++ words ++ "'\n"
  | _ => "# chx: " ++ words ++ "\n"

def runWith (c : Surroundings) (s : Settings) : Command → CommandRun Unit
  | init => runInit c s
  | index o progress => runIndex c s o (progress.getD (defaultMode c))
  | query question f retrieveOnly => runQuery c s question f retrieveOnly
  | chat f => runChat c s f
  | lookup name asJson => runLookup c s name asJson
  | deps target asJson => runDeps c s target asJson
  | stats => runStats c s
  | serve bind => runServe c s bind
  | completions shell => print (completionLine shell)

/-- Runs an invocation. Completions need no settings, and `init` writes them where there are none. -/
def run (c : Surroundings) (i : Invocation) : CommandRun Unit := do
  match i.command with
  | completions shell => print (completionLine shell)
  | command =>
    if command = init then Settings.writeStandard c.here i.settings
    runWith c (← Settings.load c.here i.settings) command

end Command

namespace Halt

def versionText : String := "chx 0.1.0\n"

def helpText : String :=
  "Code Harness: ask natural-language questions about a codebase\n\n" ++
    "Usage: chx [--config <CONFIG>] <COMMAND>\n\nCommands: " ++ Text.join ", " Command.names ++ "\n"

end Halt

def runWords (c : Surroundings) (files : FileTree) (words : List String) : Nat × Desk :=
  match Arguments.read words with
  | .error .help => (0, ⟨files, Halt.helpText, ""⟩)
  | .error .version => (0, ⟨files, Halt.versionText, ""⟩)
  | .error (.usage why) =>
    (2, ⟨files, "", "error: " ++ why ++ "\n\nFor more information, try '--help'.\n"⟩)
  | .ok i =>
    match (ExceptT.run (Command.run c i)).run ⟨files, "", ""⟩ with
    | (.ok _, desk) => (0, desk)
    | (.error f, desk) => (1, { desk with stderr := desk.stderr ++ "Error: " ++ f.report ++ "\n" })

end CodeRetrieval
