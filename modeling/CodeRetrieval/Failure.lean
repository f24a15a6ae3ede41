import CodeRetrieval.Text.Casing
import CodeRetrieval.Text.Basic

/-!
Why something failed. A failure has a message of its own and may have a cause; its chain is the list
of messages from the outermost one inwards.
-/

set_option autoImplicit false

namespace CodeRetrieval

inductive Failure where
  | parse (path reason : String)
  | sizeExceeded (path : String) (lines limit : Nat)
  | lookupMiss (what name : String)
  | batchTokenLimit (index tokens limit : Nat)
  | external (service : String) (cause : Failure)
  | plain (message : String)
  | context (message : String) (cause : Failure)
  deriving DecidableEq, Repr

namespace Failure

def message : Failure → String
  | parse path reason => s!"failed to parse {path}: {reason}"
  | sizeExceeded path lines limit => s!"{path}: {lines} lines exceeds the limit of {limit}"
  | lookupMiss what name => what ++ " `" ++ name ++ "` was not found in the index"
  | batchTokenLimit index tokens limit =>
    s!"text {index} is ~{tokens} tokens, over the batch limit of {limit}"
  | external service cause => s!"{service} service call failed: {cause.message}"
  | plain text => text
  | context text _ => text

def chain : Failure → List String
  | external service cause => (external service cause).message :: cause.chain
  | context text cause => text :: cause.chain
  | f => [f.message]

def fullText (f : Failure) : String := Text.join ": " f.chain

/-- What the failure is about once messages put in front of it are taken away. -/
def core : Failure → Failure
  | context _ cause => cause.core
  | f => f

def kind (f : Failure) : String :=
  match f.core with
  | parse .. => "ParseFailure"
  | sizeExceeded .. => "SizeExceeded"
  | lookupMiss .. => "LookupMiss"
  | batchTokenLimit .. => "BatchTokenLimitExceeded"
  | external .. => "ExternalService"
  | _ => "Error"

/-- Whether a service refused a request for its length: either it says so by the kind of the
failure, or the messages read like it. -/
def isTokenLimit (f : Failure) : Bool :=
  match f.core with
  | batchTokenLimit .. => true
  | _ =>
    let text := Text.lower f.fullText
    Text.contains text "token count" || Text.contains text "maximum context length" ||
      Text.contains text "too many tokens" ||
      (Text.contains text "token" && Text.contains text "limit")

def indentRest (n : Nat) (s : String) : String :=
  Text.join ("\n" ++ String.ofList (List.replicate n ' ')) (Text.splitOn '\n' s)

/-- A failure as a report: the message, and the causes below it, numbered if there are several. -/
def report (f : Failure) : String :=
  match f.chain with
  | [] => ""
  | [m] => m
  | [m, cause] => m ++ "\n\nCaused by:\n    " ++ indentRest 4 cause
  | m :: causes =>
    m ++ "\n\nCaused by:" ++
      Text.join "" (causes.zipIdx.map fun (cause, i) =>
        "\n" ++ String.ofList (List.replicate (5 - (toString i).length) ' ') ++
          toString i ++ ": " ++ indentRest 7 cause)

end Failure

abbrev Outcome := Except Failure

end CodeRetrieval
