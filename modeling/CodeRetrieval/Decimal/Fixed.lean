import CodeRetrieval.Decimal.Shortest

set_option autoImplicit false

namespace CodeRetrieval.Decimal

/-- The natural number nearest to a fraction; a half goes to the even neighbour. -/
def Ratio.round (r : Ratio) : Nat :=
  let d := r.num / r.den
  let twice := 2 * (r.num % r.den)
  if twice < r.den then d
  else if r.den < twice then d + 1
  else if d % 2 == 0 then d else d + 1

def Binary.fixed (b : Binary) (places : Nat) : String :=
  let scaled := ((quarters (4 * b.mantissa) b.exponent).shift (-places)).round
  let ds := digits scaled
  let padded := List.replicate (places + 1 - ds.length) '0' ++ ds
  let whole := padded.take (padded.length - places)
  let part := padded.drop (padded.length - places)
  let sign := if b.negative then ['-'] else []
  String.ofList (sign ++ whole ++ (if places = 0 then [] else '.' :: part))

def fixed (places : Nat) (x : Float) : String :=
  match Parts.ofFloat x with
  | .finite b => b.fixed places
  | .infinite negative => if negative then "-inf" else "inf"
  | .nan => "NaN"

end CodeRetrieval.Decimal
