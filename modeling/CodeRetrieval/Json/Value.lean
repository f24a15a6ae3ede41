set_option autoImplicit false

namespace CodeRetrieval

/-- A JSON number: a whole number of 64 bits, signed or unsigned, or else a double, held by its
bit pattern so that equality is decidable. -/
inductive Json.Number where
  | whole (n : Int)
  | double (bits : UInt64)
  deriving DecidableEq, Repr

inductive Json where
  | null
  | bool (b : Bool)
  | num (n : Json.Number)
  | str (s : String)
  | arr (items : List Json)
  | obj (fields : List (String × Json))
  deriving Repr

namespace Json

mutual

def same : Json → Json → Bool
  | .null, .null => true
  | .bool a, .bool b => a == b
  | .num a, .num b => a == b
  | .str a, .str b => a == b
  | .arr a, .arr b => sameItems a b
  | .obj a, .obj b => sameFields a b
  | _, _ => false

def sameItems : List Json → List Json → Bool
  | [], [] => true
  | a :: as, b :: bs => same a b && sameItems as bs
  | _, _ => false

def sameFields : List (String × Json) → List (String × Json) → Bool
  | [], [] => true
  | (k, a) :: as, (l, b) :: bs => k == l && same a b && sameFields as bs
  | _, _ => false

end

mutual

theorem same_iff : (a b : Json) → (same a b = true ↔ a = b)
  | .null, b => by cases b <;> simp [same]
  | .bool _, b => by cases b <;> simp [same]
  | .num _, b => by cases b <;> simp [same]
  | .str _, b => by cases b <;> simp [same]
  | .arr xs, b => by cases b <;> simp [same, sameItems_iff xs]
  | .obj xs, b => by cases b <;> simp [same, sameFields_iff xs]

theorem sameItems_iff : (as bs : List Json) → (sameItems as bs = true ↔ as = bs)
  | [], bs => by cases bs <;> simp [sameItems]
  | a :: as, bs => by cases bs <;> simp [sameItems, same_iff a, sameItems_iff as]

theorem sameFields_iff : (as bs : List (String × Json)) → (sameFields as bs = true ↔ as = bs)
  | [], bs => by cases bs <;> simp [sameFields]
  | (k, a) :: as, bs => by
    cases bs <;> simp [sameFields, same_iff a, sameFields_iff as, Prod.ext_iff]

end

instance : DecidableEq Json := fun a b =>
  if h : same a b = true then isTrue ((same_iff a b).1 h)
  else isFalse fun e => h ((same_iff a b).2 e)

instance : Inhabited Json := ⟨.null⟩

def setField {α : Type} (name : String) (v : α) : List (String × α) → List (String × α)
  | [] => [(name, v)]
  | (k, w) :: rest =>
    if name < k then (name, v) :: (k, w) :: rest
    else if k < name then (k, w) :: setField name v rest
    else (name, v) :: rest

/-- Fields in order from fields written in any order: of equal names the last one counts. -/
def orderFields {α : Type} (written : List (String × α)) : List (String × α) :=
  written.foldl (fun acc (k, v) => setField k v acc) []

def ofFields (fields : List (String × Json)) : Json := .obj (orderFields fields)

def ofNat (n : Nat) : Json := .num (.whole n)

def ofFloat (x : Float) : Json := .num (.double x.toBits)

def ofStrings (xs : List String) : Json := .arr (xs.map .str)

def ofText? : Option String → Json
  | some s => .str s
  | none => .null

def field? (name : String) : Json → Option Json
  | .obj fields => fields.lookup name
  | _ => none

def text? : Json → Option String
  | .str s => some s
  | _ => none

def bool? : Json → Option Bool
  | .bool b => some b
  | _ => none

def items? : Json → Option (List Json)
  | .arr xs => some xs
  | _ => none

def fields? : Json → Option (List (String × Json))
  | .obj xs => some xs
  | _ => none

def nat? : Json → Option Nat
  | .num (.whole n) => if 0 ≤ n then some n.toNat else none
  | _ => none

def int? : Json → Option Int
  | .num (.whole n) => some n
  | _ => none

def Number.toFloat : Number → Float
  | .whole n => Float.ofInt n
  | .double bits => Float.ofBits bits

def float? : Json → Option Float
  | .num n => some n.toFloat
  | _ => none

end Json

end CodeRetrieval
