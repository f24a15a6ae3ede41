set_option autoImplicit false

namespace CodeRetrieval.Decimal

/-- A finite number `mantissa * 2 ^ exponent`, with its sign. `atStep` holds where the numbers just
below lie twice as close as those just above. -/
structure Binary where
  negative : Bool
  mantissa : Nat
  exponent : Int
  atStep : Bool
  deriving DecidableEq, Repr

inductive Parts where
  | finite (b : Binary)
  | infinite (negative : Bool)
  | nan
  deriving DecidableEq, Repr

/-- Takes apart a pattern of one sign bit, `expBits` exponent bits and `fracBits` fraction bits. -/
def Parts.ofPattern (expBits fracBits : Nat) (bits : Nat) : Parts :=
  let fraction := bits % Nat.pow 2 fracBits
  let biased := bits / Nat.pow 2 fracBits % Nat.pow 2 expBits
  let negative := bits / Nat.pow 2 (fracBits + expBits) % 2 == 1
  let least : Int := 2 - (Nat.pow 2 (expBits - 1) : Int) - fracBits
  if biased = Nat.pow 2 expBits - 1 then
    if fraction = 0 then .infinite negative else .nan
  else if biased = 0 then .finite ⟨negative, fraction, least, false⟩
  else
    .finite ⟨negative, Nat.pow 2 fracBits + fraction, least + (biased - 1 : Nat),
      fraction == 0 && 1 < biased⟩

def Parts.ofFloat (x : Float) : Parts := ofPattern 11 52 x.toBits.toNat

def Parts.ofFloat32 (x : Float32) : Parts := ofPattern 8 23 x.toBits.toNat

end CodeRetrieval.Decimal
