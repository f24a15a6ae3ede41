import CodeRetrieval.Text.Pattern

/-!
Patterns for paths. `?` stands for one byte and `*` for any bytes, slashes included; `**` between
slashes stands for whole directories; `[…]` for one byte of a set, `{…,…}` for one of some patterns,
and `\x` for the character itself. A pattern has to cover the whole path.
-/

set_option autoImplicit false

namespace CodeRetrieval.Glob

inductive Token where
  | literal (c : Char)
  | any
  | zeroOrMore
  | leadingDirs
  | subtree
  | betweenDirs
  | set (negated : Bool) (ranges : List (Char × Char))
  | group (branches : List (List Token))

inductive Fault where
  | unclosedClass
  | invalidRange (a b : Char)
  | unopenedGroup
  | unclosedGroup
  | danglingEscape
  deriving DecidableEq, Repr

def Fault.message : Fault → String
  | unclosedClass => "unclosed character class; missing ']'"
  | invalidRange a b => "invalid range; '" ++ a.toString ++ "' > '" ++ b.toString ++ "'"
  | unopenedGroup =>
    "unopened alternate group; missing '\x7b' (maybe escape '\x7d' with '[\x7d]'?)"
  | unclosedGroup =>
    "unclosed alternate group; missing '\x7d' (maybe escape '\x7b' with '[\x7b]'?)"
  | danglingEscape => "dangling '\\'"

structure Level where
  branches : List (List Token)
  tokens : List Token

structure Progress where
  level : Level
  around : List Level

namespace Progress

def start : Progress := ⟨⟨[], []⟩, []⟩

def push (s : Progress) (t : Token) : Progress :=
  { s with level := { s.level with tokens := t :: s.level.tokens } }

def pushAll (s : Progress) (ts : List Token) : Progress := ts.foldl push s

def replaceLast (s : Progress) (t : Token) : Progress :=
  { s with level := { s.level with tokens := t :: s.level.tokens.drop 1 } }

def inGroup (s : Progress) : Bool := !s.around.isEmpty

def openGroup (s : Progress) : Progress := ⟨⟨[], []⟩, s.level :: s.around⟩

def closeGroup (s : Progress) : Except Fault Progress :=
  match s.around with
  | [] => .error .unopenedGroup
  | outer :: more =>
    let branches := (s.level.tokens.reverse :: s.level.branches).reverse
    .ok (Progress.push ⟨outer, more⟩ (.group branches))

def comma (s : Progress) : Progress :=
  if s.inGroup then
    { s with level := ⟨s.level.tokens.reverse :: s.level.branches, []⟩ }
  else s.push (.literal ',')

/-- Two stars after `before` and in front of `next`, and whether they cover the slash that comes
next. They stand for directories only where slashes or the ends of a branch are around them. -/
def stars (s : Progress) (before next : Option Char) : Progress × Bool :=
  let plain := (s.pushAll [.zeroOrMore, .zeroOrMore], false)
  let atSlash := next == some '/'
  if s.level.tokens.isEmpty then
    if next.isNone || atSlash then (s.push .leadingDirs, atSlash) else plain
  else if before != some '/' && !(s.inGroup && (before == some ',' || before == some '{')) then plain
  else if next.isNone || atSlash || (s.inGroup && (next == some ',' || next == some '}')) then
    match s.level.tokens with
    | .leadingDirs :: _ | .subtree :: _ => (s, atSlash)
    | _ => (s.replaceLast (if atSlash then .betweenDirs else .subtree), atSlash)
  else plain

end Progress

/-- A set that is being read: the latest range first, whether nothing has been read yet, and whether
the last range is still open. -/
structure SetProgress where
  negated : Bool
  ranges : List (Char × Char)
  isFirst : Bool
  isOpen : Bool

namespace SetProgress

def add (s : SetProgress) (c : Char) : Except Fault SetProgress :=
  if c = '-' ∧ !s.isFirst ∧ !s.isOpen then .ok { s with isOpen := true }
  else
    match s.isOpen, s.ranges with
    | true, (a, _) :: more =>
      if c < a then .error (.invalidRange a c)
      else .ok { s with ranges := (a, c) :: more, isOpen := false }
    | _, ranges => .ok { s with ranges := (c, c) :: ranges, isFirst := false, isOpen := false }

/-- The finished set; a range left open has meant the dash itself. -/
def token (s : SetProgress) : Token :=
  .set s.negated ((if s.isOpen then ('-', '-') :: s.ranges else s.ranges).reverse)

end SetProgress

mutual

def readFrom (s : Progress) (before : Option Char) : List Char → Except Fault (List Token)
  | [] => if s.inGroup then .error .unclosedGroup else .ok s.level.tokens.reverse
  | '?' :: rest => readFrom (s.push .any) (some '?') rest
  | '*' :: '*' :: '/' :: rest =>
    match s.stars before (some '/') with
    | (s, true) => readFrom s (some '/') rest
    | (s, false) => readFrom s (some '*') ('/' :: rest)
  | '*' :: '*' :: rest => readFrom (s.stars before rest.head?).1 (some '*') rest
  | '*' :: rest => readFrom (s.push .zeroOrMore) (some '*') rest
  | '[' :: '!' :: rest => readSet s ⟨true, [], true, false⟩ rest
  | '[' :: '^' :: rest => readSet s ⟨true, [], true, false⟩ rest
  | '[' :: rest => readSet s ⟨false, [], true, false⟩ rest
  | '{' :: rest => readFrom s.openGroup (some '{') rest
  | '}' :: rest =>
    match s.closeGroup with
    | .ok s => readFrom s (some '}') rest
    | .error f => .error f
  | ',' :: rest => readFrom s.comma (some ',') rest
  | ['\\'] => .error .danglingEscape
  | '\\' :: c :: rest => readFrom (s.push (.literal c)) (some c) rest
  | c :: rest => readFrom (s.push (.literal c)) (some c) rest
  termination_by cs => cs.length

def readSet (s : Progress) (set : SetProgress) : List Char → Except Fault (List Token)
  | [] => .error .unclosedClass
  | c :: rest =>
    if c = ']' ∧ !set.isFirst then readFrom (s.push set.token) (some ']') rest
    else
      match set.add c with
      | .ok set => readSet s set rest
      | .error f => .error f
  termination_by cs => cs.length

end

def read (text : String) : Except Fault (List Token) := readFrom .start none text.toList

def ofByte (b : UInt8) : Char := Char.ofNat b.toNat

def bytesOf (text : String) : List Char := text.toUTF8.toList.map ofByte

def charBytes (c : Char) : List Char := (String.utf8EncodeChar c).map ofByte

/-- The ranges of bytes that a range of characters is read as: its ends are written byte by byte, and
only the bytes that meet form a range. -/
def byteRanges : Char × Char → List (Char × Char)
  | (a, b) =>
    if a = b then (charBytes a).map fun c => (c, c)
    else
      (charBytes a).dropLast.map (fun c => (c, c)) ++
        [((charBytes a).getLastD a, (charBytes b).headD b)] ++
        (charBytes b).tail.map fun c => (c, c)

open Text (Pattern)

def anyByte : Pattern := .one fun _ => true

def slash : Pattern := .char '/'

mutual

def Token.pattern? : Token → Option Pattern
  | .literal c => some (.all ((charBytes c).map .char))
  | .any => some anyByte
  | .zeroOrMore => some (.star anyByte)
  | .leadingDirs => some (.alt (.opt slash) (.seq (.star anyByte) slash))
  | .subtree => some (.seq slash (.star anyByte))
  | .betweenDirs => some (.alt slash (.all [slash, .star anyByte, slash]))
  | .set negated ranges =>
    let bytes := ranges.flatMap byteRanges
    some (.one fun c => (bytes.any fun (a, b) => a ≤ c && c ≤ b) != negated)
  | .group branches =>
    match branchPatterns branches with
    | [] => none
    | ps => some (.any ps)

def tokenPatterns : List Token → List Pattern
  | [] => []
  | t :: rest => t.pattern?.toList ++ tokenPatterns rest

def branchPatterns : List (List Token) → List Pattern
  | [] => []
  | branch :: rest =>
    match tokenPatterns branch with
    | [] => branchPatterns rest
    | ps => .all ps :: branchPatterns rest

end

def pattern : List Token → Pattern
  | [.leadingDirs] => .seq (.star anyByte) .stop
  | tokens => .seq (.all (tokenPatterns tokens)) .stop

def covers (tokens : List Token) (path : String) : Bool :=
  ((pattern tokens).run some ⟨none, bytesOf path, []⟩).isSome

end CodeRetrieval.Glob
