import CodeRetrieval.Text.Property

set_option autoImplicit false

namespace CodeRetrieval.Text

namespace Chars

def trimStart (s : List Char) : List Char := s.dropWhile isBlank

def trimEnd (s : List Char) : List Char := (s.reverse.dropWhile isBlank).reverse

def trim (s : List Char) : List Char := trimEnd (trimStart s)

/-- What follows `p`, if the text starts with it. -/
def afterLead : List Char → List Char → Option (List Char)
  | [], s => some s
  | _ :: _, [] => none
  | p :: ps, c :: s => if p = c then afterLead ps s else none

def beforeTail (p s : List Char) : Option (List Char) :=
  (afterLead p.reverse s.reverse).map List.reverse

/-- Parts before and after the first occurrence of `p`. -/
def cutAt (p : List Char) : List Char → Option (List Char × List Char)
  | [] => if p.isEmpty then some ([], []) else none
  | c :: s =>
    match afterLead p (c :: s) with
    | some rest => some ([], rest)
    | none => (cutAt p s).map fun (a, b) => (c :: a, b)

def splitBy (sep : Char → Bool) : List Char → List (List Char)
  | [] => [[]]
  | c :: s =>
    if sep c then [] :: splitBy sep s
    else
      match splitBy sep s with
      | [] => [[c]]
      | piece :: more => (c :: piece) :: more

def dropLeads (p : List Char) : Nat → List Char → List Char
  | 0, s => s
  | n + 1, s =>
    match afterLead p s with
    | some rest => dropLeads p n rest
    | none => s

/-- Replaces each occurrence of `p`, found from left to right; `skip` characters are still
covered by the occurrence found last. -/
def replaceFrom (p q : List Char) : Nat → List Char → List Char
  | _, [] => []
  | n + 1, _ :: s => replaceFrom p q n s
  | 0, c :: s =>
    match afterLead p (c :: s) with
    | some _ => q ++ replaceFrom p q (p.length - 1) s
    | none => c :: replaceFrom p q 0 s

end Chars

def trimStart (s : String) : String := String.ofList (Chars.trimStart s.toList)

def trimEnd (s : String) : String := String.ofList (Chars.trimEnd s.toList)

def trim (s : String) : String := String.ofList (Chars.trim s.toList)

def isBlankText (s : String) : Bool := s.toList.all isBlank

def startsWith (s p : String) : Bool := (Chars.afterLead p.toList s.toList).isSome

def endsWith (s p : String) : Bool := (Chars.beforeTail p.toList s.toList).isSome

def afterLead? (s p : String) : Option String :=
  (Chars.afterLead p.toList s.toList).map String.ofList

def beforeTail? (s p : String) : Option String :=
  (Chars.beforeTail p.toList s.toList).map String.ofList

def contains (s p : String) : Bool := (Chars.cutAt p.toList s.toList).isSome

def cutLastBy? (sep : Char → Bool) (s : String) : Option (String × String) :=
  let back := s.toList.reverse
  match back.dropWhile (!sep ·) with
  | [] => none
  | _ :: lead =>
    some (String.ofList lead.reverse, String.ofList (back.takeWhile (!sep ·)).reverse)

def afterLast (sep : Char) (s : String) : String :=
  String.ofList (s.toList.reverse.takeWhile (· != sep)).reverse

def splitOn (sep : Char) (s : String) : List String :=
  (Chars.splitBy (· == sep) s.toList).map String.ofList

def fields (s : String) : List String :=
  ((Chars.splitBy isBlank s.toList).filter (!·.isEmpty)).map String.ofList

def dropLeads (p s : String) : String :=
  if p.isEmpty then s else String.ofList (Chars.dropLeads p.toList s.toList.length s.toList)

def dropTails (p s : String) : String :=
  if p.isEmpty then s
  else
    String.ofList
      (Chars.dropLeads p.toList.reverse s.toList.length s.toList.reverse).reverse

def replace (p q s : String) : String :=
  String.ofList (Chars.replaceFrom p.toList q.toList 0 s.toList)

def join (sep : String) (parts : List String) : String := sep.intercalate parts

def countChar (c : Char) (s : String) : Nat := s.toList.count c

def take (n : Nat) (s : String) : String := String.ofList (s.toList.take n)

def words (s : String) : List String :=
  ((Chars.splitBy (!isWord ·) s.toList).filter (!·.isEmpty)).map String.ofList

end CodeRetrieval.Text
