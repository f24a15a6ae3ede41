import CodeRetrieval.Failure
import CodeRetrieval.Json.Reader
import CodeRetrieval.Service.Address

/-!
Requests to services over a network, and how often a request is made again. A service that is busy
or fails is asked again, and so is one that cannot be reached; a service that refuses is not.
-/

set_option autoImplicit false

namespace CodeRetrieval

structure HttpRequest where
  address : Address
  authorization : Option String
  body : Json

inductive HttpReply where
  | answered (status : Nat) (body : String)
  | lost
  deriving DecidableEq, Repr

/-- A network: what it answers may depend on how many calls a service has had before, and on the
attempt within the call. -/
inductive Network where
  | unreachable
  | reaching (reply : Nat → Nat → HttpRequest → HttpReply)

def Network.reply : Network → Nat → Nat → HttpRequest → HttpReply
  | unreachable, _, _, _ => .lost
  | reaching reply, call, attempt, request => reply call attempt request

def Network.unreachableMessage : String := "Network is unreachable (os error 101)"

namespace Http

def phrase? : Nat → Option String
  | 100 => some "Continue"
  | 101 => some "Switching Protocols"
  | 102 => some "Processing"
  | 200 => some "OK"
  | 201 => some "Created"
  | 202 => some "Accepted"
  | 203 => some "Non Authoritative Information"
  | 204 => some "No Content"
  | 205 => some "Reset Content"
  | 206 => some "Partial Content"
  | 207 => some "Multi-Status"
  | 208 => some "Already Reported"
  | 226 => some "IM Used"
  | 300 => some "Multiple Choices"
  | 301 => some "Moved Permanently"
  | 302 => some "Found"
  | 303 => some "See Other"
  | 304 => some "Not Modified"
  | 305 => some "Use Proxy"
  | 307 => some "Temporary Redirect"
  | 308 => some "Permanent Redirect"
  | 400 => some "Bad Request"
  | 401 => some "Unauthorized"
  | 402 => some "Payment Required"
  | 403 => some "Forbidden"
  | 404 => some "Not Found"
  | 405 => some "Method Not Allowed"
  | 406 => some "Not Acceptable"
  | 407 => some "Proxy Authentication Required"
  | 408 => some "Request Timeout"
  | 409 => some "Conflict"
  | 410 => some "Gone"
  | 411 => some "Length Required"
  | 412 => some "Precondition Failed"
  | 413 => some "Payload Too Large"
  | 414 => some "URI Too Long"
  | 415 => some "Unsupported Media Type"
  | 416 => some "Range Not Satisfiable"
  | 417 => some "Expectation Failed"
  | 418 => some "I'm a teapot"
  | 421 => some "Misdirected Request"
  | 422 => some "Unprocessable Entity"
  | 423 => some "Locked"
  | 424 => some "Failed Dependency"
  | 425 => some "Too Early"
  | 426 => some "Upgrade Required"
  | 428 => some "Precondition Required"
  | 429 => some "Too Many Requests"
  | 431 => some "Request Header Fields Too Large"
  | 451 => some "Unavailable For Legal Reasons"
  | 500 => some "Internal Server Error"
  | 501 => some "Not Implemented"
  | 502 => some "Bad Gateway"
  | 503 => some "Service Unavailable"
  | 504 => some "Gateway Timeout"
  | 505 => some "HTTP Version Not Supported"
  | 506 => some "Variant Also Negotiates"
  | 507 => some "Insufficient Storage"
  | 508 => some "Loop Detected"
  | 510 => some "Not Extended"
  | 511 => some "Network Authentication Required"
  | _ => none

def statusText (status : Nat) : String :=
  toString status ++ " " ++ (phrase? status).getD "<unknown status code>"

def isSuccess (status : Nat) : Bool := 200 ≤ status && status < 300

def isPassing (status : Nat) : Bool := status == 429 || (500 ≤ status && status < 600)

inductive Attempt where
  | success (answer : Json)
  | passing (f : Failure)
  | final (f : Failure)

structure Endpoint where
  service : String
  url : String
  authorization : Option String

def apiError (e : Endpoint) (status : Nat) (body : String) : Failure :=
  .plain (e.service ++ " API error " ++ statusText status ++ ": " ++ body)

def connectionError (e : Endpoint) (why : String) : Failure :=
  .plain (e.service ++ " connection error (" ++ e.url ++ "): " ++ why)

def isHeaderText (s : String) : Bool :=
  s.toList.all fun c => (32 ≤ c.toNat && c.toNat != 127) || c == '\t'

def request (e : Endpoint) (body : Json) : Except String HttpRequest :=
  match Address.parse? e.url with
  | none => .error "builder error"
  | some (.other text) => .error ("builder error for url (" ++ text ++ ")")
  | some address =>
    if e.authorization.all isHeaderText then .ok ⟨address, e.authorization, body⟩
    else .error "builder error"

def attempt (n : Network) (e : Endpoint) (body : Json) (call i : Nat) : Attempt :=
  match request e body with
  | .error why => .passing (connectionError e why)
  | .ok r =>
    match n.reply call i r with
    | .lost =>
      .passing (connectionError e ("error sending request for url (" ++ r.address.text ++ ")"))
    | .answered status text =>
      if isSuccess status then
        match Json.parse? text with
        | some answer => .success answer
        | none => .final (.plain "error decoding response body")
      else if isPassing status then .passing (apiError e status text)
      else .final (apiError e status text)

/-- What came of a call, and the requests that were made for it. -/
structure Exchange where
  made : List HttpRequest
  answer : Outcome Json

/-- Makes attempts until one is settled; the last of them is settled in any case. -/
def attempts (n : Network) (e : Endpoint) (body : Json) (call : Nat) : Nat → Nat → Exchange
  | more, i =>
    let made := (request e body).toOption.toList
    match attempt n e body call i with
    | .success answer => ⟨made, .ok answer⟩
    | .final f => ⟨made, .error f⟩
    | .passing f =>
      match more with
      | 0 => ⟨made, .error f⟩
      | more + 1 =>
        let rest := attempts n e body call more (i + 1)
        ⟨made ++ rest.made, rest.answer⟩

def exchange (n : Network) (e : Endpoint) (retries call : Nat) (body : Json) : Exchange :=
  attempts n e body call retries 0

def post (n : Network) (e : Endpoint) (retries call : Nat) (body : Json) : Outcome Json :=
  (exchange n e retries call body).answer

def below (base operation : String) : String := Text.dropTails "/" base ++ "/" ++ operation

end Http

end CodeRetrieval
