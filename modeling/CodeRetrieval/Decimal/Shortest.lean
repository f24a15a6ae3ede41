import CodeRetrieval.Decimal.Binary

set_option autoImplicit false

namespace CodeRetrieval.Decimal

structure Ratio where
  num : Nat
  den : Nat
  deriving DecidableEq, Repr

def quarters (n : Nat) (e : Int) : Ratio :=
  if 0 ≤ e then ⟨n * Nat.pow 2 e.toNat, 4⟩ else ⟨n, 4 * Nat.pow 2 (-e).toNat⟩

def Ratio.shift (r : Ratio) (k : Int) : Ratio :=
  if 0 ≤ k then ⟨r.num, r.den * Nat.pow 10 k.toNat⟩
  else ⟨r.num * Nat.pow 10 (-k).toNat, r.den⟩

/-- Whether `d` lies between two fractions of one denominator, whose ends count if `closed`. -/
def liesBetween (lo hi : Ratio) (closed : Bool) (d : Nat) : Bool :=
  if closed then lo.num ≤ d * lo.den && d * hi.den ≤ hi.num
  else lo.num < d * lo.den && d * hi.den < hi.num

/-- A multiple of `10 ^ k` that reads back as `b`: one of the two neighbours of `b`, the nearer
one if both do, the even one if they are equally near. -/
def Binary.onGrid (b : Binary) (k : Int) : Option Nat :=
  let lo := (quarters (4 * b.mantissa - if b.atStep then 1 else 2) b.exponent).shift k
  let hi := (quarters (4 * b.mantissa + 2) b.exponent).shift k
  let v := (quarters (4 * b.mantissa) b.exponent).shift k
  let closed := b.mantissa % 2 == 0
  let d := v.num / v.den
  let below := liesBetween lo hi closed d && 0 < d
  let above := liesBetween lo hi closed (d + 1)
  if below && above then
    let twice := 2 * (v.num % v.den)
    some (if twice < v.den then d else if v.den < twice then d + 1
      else if d % 2 == 0 then d else d + 1)
  else if below then some d
  else if above then some (d + 1)
  else none

def Binary.firstOnGrid (b : Binary) : Nat → Int → Nat × Int
  | 0, k => (b.mantissa, k)
  | fuel + 1, k =>
    match b.onGrid k with
    | some d => (d, k)
    | none => b.firstOnGrid fuel (k - 1)

def dropZeros : Nat → Nat → Int → Nat × Int
  | 0, d, k => (d, k)
  | fuel + 1, d, k =>
    if d ≠ 0 ∧ d % 10 = 0 then dropZeros fuel (d / 10) (k + 1) else (d, k)

/-- Fewest digits `d` and exponent `k` such that `d * 10 ^ k` reads back as `b`. -/
def Binary.shortest (b : Binary) : Nat × Int :=
  if b.mantissa = 0 then (0, 0)
  else
    let top : Int := ((Nat.log2 b.mantissa : Int) + b.exponent + 1) * 30103 / 100000 + 1
    let (d, k) := b.firstOnGrid 800 top
    dropZeros 40 d k

def digits (n : Nat) : List Char := Nat.toDigits 10 n

def positional (d : Nat) (k : Int) (tail : List Char) : List Char :=
  let ds := digits d
  if 0 ≤ k then ds ++ List.replicate k.toNat '0' ++ tail
  else
    let places := (-k).toNat
    let padded := List.replicate (places + 1 - ds.length) '0' ++ ds
    padded.take (padded.length - places) ++ '.' :: padded.drop (padded.length - places)

def scientific (d : Nat) (k : Int) : List Char :=
  let ds := digits d
  let e : Int := k + (ds.length - 1 : Nat)
  let exponent := (if e < 0 then ['-'] else ['+']) ++ digits e.natAbs
  match ds with
  | [] => []
  | [c] => c :: 'e' :: exponent
  | c :: rest => c :: '.' :: rest ++ 'e' :: exponent

end CodeRetrieval.Decimal
