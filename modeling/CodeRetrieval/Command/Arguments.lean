import CodeRetrieval.Index.Run
import CodeRetrieval.Text.Basic

/-!
The words of a command line. Every command has flags, options with a value, and at most one operand.
Words are read from left to right, and the first one that does not fit ends the reading; so does a
word that asks for help.
-/

set_option autoImplicit false

namespace CodeRetrieval

inductive ProgressMode where
  | off
  | human
  | json
  deriving DecidableEq, Repr

def ProgressMode.ofName? : String → Option ProgressMode
  | "off" => some off
  | "human" => some human
  | "json" => some json
  | _ => none

structure QueryFlags where
  topK : Option Nat
  language : Option String
  kind : Option String
  noHybrid : Bool
  json : Bool
  progress : Option ProgressMode
  deriving DecidableEq, Repr

inductive Command where
  | init
  | index (options : IndexOptions) (progress : Option ProgressMode)
  | query (question : String) (flags : QueryFlags) (retrieveOnly : Bool)
  | chat (flags : QueryFlags)
  | lookup (name : String) (json : Bool)
  | deps (target : String) (json : Bool)
  | stats
  | serve (bind : Option String)
  | completions (shell : String)
  deriving DecidableEq, Repr

structure Invocation where
  settings : String
  command : Command
  deriving DecidableEq, Repr

inductive Halt where
  | usage (why : String)
  | help
  | version
  deriving DecidableEq, Repr

namespace Arguments

structure Opt where
  name : String
  accepts : String → Bool

structure Shape where
  flags : List String
  options : List Opt
  operand : Option (String → Bool)

structure Given where
  flags : List String := []
  options : List (String × String) := []
  operand : Option String := none

namespace Given

def has (g : Given) (flag : String) : Bool := g.flags.contains flag

def value? (g : Given) (name : String) : Option String := g.options.lookup name

end Given

def anyText : String → Bool := fun _ => true

def number? (s : String) : Option Nat :=
  let digits := match s.toList with
    | '+' :: rest => rest
    | cs => cs
  if digits.isEmpty || !digits.all Char.isDigit then none
  else
    let n := digits.foldl (fun acc d => 10 * acc + (d.toNat - 48)) 0
    if n < UInt64.size then some n else none

def settingsOption : Opt := ⟨"config", fun s => !s.isEmpty⟩

def progressOption : Opt := ⟨"progress", fun s => (ProgressMode.ofName? s).isSome⟩

def queryOptions : List Opt := [
  ⟨"top-k", fun s => (number? s).isSome⟩, ⟨"language", anyText⟩, ⟨"kind", anyText⟩,
  progressOption]

def queryFlags : List String := ["no-hybrid", "json"]

def shells : List String := ["bash", "elvish", "fish", "powershell", "zsh"]

def shape? : String → Option Shape
  | "init" => some ⟨[], [], none⟩
  | "index" => some ⟨["dry-run", "reset"], [progressOption], none⟩
  | "query" => some ⟨"retrieve-only" :: queryFlags, queryOptions, some anyText⟩
  | "chat" => some ⟨queryFlags, queryOptions, none⟩
  | "lookup" => some ⟨["json"], [], some anyText⟩
  | "deps" => some ⟨["json"], [], some anyText⟩
  | "stats" => some ⟨[], [], none⟩
  | "serve" => some ⟨[], [⟨"bind", anyText⟩], none⟩
  | "completions" => some ⟨[], [], some fun s => shells.contains s⟩
  | _ => none

inductive Word where
  | fence
  | long (name : String) (value : Option String)
  | short (letters : List Char)
  | plain

def Word.of (s : String) : Word :=
  match s.toList with
  | ['-', '-'] => fence
  | '-' :: '-' :: rest =>
    long (String.ofList (rest.takeWhile (· != '=')))
      (match rest.dropWhile (· != '=') with
        | _ :: value => some (String.ofList value)
        | [] => none)
  | '-' :: c :: rest => short (c :: rest)
  | _ => plain

def unexpected (word : String) : Halt := .usage ("unexpected argument '" ++ word ++ "' found")

def repeated (name : String) : Halt :=
  .usage ("the argument '--" ++ name ++ "' cannot be used multiple times")

def withoutValue (name : String) : Halt :=
  .usage ("a value is required for '--" ++ name ++ "' but none was supplied")

def badValue (name value : String) : Halt :=
  .usage ("invalid value '" ++ value ++ "' for '" ++ name ++ "'")

def setOption (o : Opt) (value : String) (g : Given) : Except Halt Given :=
  if (g.value? o.name).isSome then .error (repeated o.name)
  else if o.accepts value then .ok { g with options := (o.name, value) :: g.options }
  else .error (badValue ("--" ++ o.name) value)

def setOperand (s : Shape) (word : String) (g : Given) : Except Halt Given :=
  match s.operand, g.operand with
  | some accepts, none =>
    if accepts word then .ok { g with operand := some word } else .error (badValue "operand" word)
  | _, _ => .error (unexpected word)

def haltOfShort (hasVersion : Bool) (word : String) : List Char → Halt
  | 'h' :: _ => .help
  | 'V' :: _ => if hasVersion then .version else unexpected word
  | _ => unexpected word

def readAll (s : Shape) (fenced : Bool) (g : Given) : List String → Except Halt Given
  | [] => .ok g
  | word :: rest =>
    if fenced then do readAll s true (← setOperand s word g) rest
    else
      match Word.of word with
      | .fence => readAll s true g rest
      | .plain => do readAll s false (← setOperand s word g) rest
      | .short letters => .error (haltOfShort false word letters)
      | .long "help" none => .error .help
      | .long name value =>
        match (settingsOption :: s.options).find? (·.name == name), value with
        | some o, some v => do readAll s false (← setOption o v g) rest
        | some o, none =>
          match rest with
          | [] => .error (withoutValue name)
          | v :: more =>
            match Word.of v with
            | .plain => do readAll s false (← setOption o v g) more
            | _ => .error (withoutValue name)
        | none, none =>
          if s.flags.contains name then
            if g.has name then .error (repeated name)
            else readAll s false { g with flags := name :: g.flags } rest
          else .error (unexpected word)
        | none, some _ => .error (unexpected word)

def missingOperand : Halt := .usage "the following required arguments were not provided"

def operand (g : Given) : Except Halt String :=
  match g.operand with
  | some o => .ok o
  | none => .error missingOperand

def flagsOf (g : Given) : QueryFlags where
  topK := (g.value? "top-k").bind number?
  language := g.value? "language"
  kind := g.value? "kind"
  noHybrid := g.has "no-hybrid"
  json := g.has "json"
  progress := (g.value? "progress").bind ProgressMode.ofName?

def command (name : String) (g : Given) : Except Halt Command :=
  match name with
  | "init" => .ok .init
  | "index" => .ok (.index ⟨g.has "dry-run", g.has "reset"⟩
      ((g.value? "progress").bind ProgressMode.ofName?))
  | "query" => return .query (← operand g) (flagsOf g) (g.has "retrieve-only")
  | "chat" => .ok (.chat (flagsOf g))
  | "lookup" => return .lookup (← operand g) (g.has "json")
  | "deps" => return .deps (← operand g) (g.has "json")
  | "serve" => .ok (.serve (g.value? "bind"))
  | "completions" => return .completions (← operand g)
  | _ => .ok .stats

def unknownCommand (word : String) : Halt :=
  .usage ("unrecognized subcommand '" ++ word ++ "'")

def helpOn : List String → Halt
  | [] => .help
  | [word] => if word == "help" || (shape? word).isSome then .help else unknownCommand word
  | first :: second :: _ =>
    unknownCommand (if (shape? first).isSome || first == "help" then second else first)

def standardSettings : String := "./chx.toml"

/-- Reads words up to the name of a command, and what follows it. The path of the settings that
stands last counts. -/
def readFrom (g : Given) : List String → Except Halt Invocation
  | [] => .error (.usage "a subcommand is required but one was not provided")
  | word :: rest =>
    match Word.of word with
    | .fence => .error (.usage "a subcommand is required but one was not provided")
    | .short letters => .error (haltOfShort true word letters)
    | .long "help" none => .error .help
    | .long "version" none => .error .version
    | .long "config" (some v) => do readFrom (← setOption settingsOption v g) rest
    | .long "config" none =>
      match rest with
      | [] => .error (withoutValue "config")
      | v :: more =>
        match Word.of v with
        | .plain => do readFrom (← setOption settingsOption v g) more
        | _ => .error (withoutValue "config")
    | .long .. => .error (unexpected word)
    | .plain =>
      if word == "help" then .error (helpOn rest)
      else
        match shape? word with
        | none => .error (unknownCommand word)
        | some s => do
          let given ← readAll s false {} rest
          let settings := ((given.value? "config").or (g.value? "config")).getD standardSettings
          return ⟨settings, ← command word given⟩

def read (words : List String) : Except Halt Invocation := readFrom {} words

end Arguments

end CodeRetrieval
