import CodeRetrieval.Embedding.Vector
import Mathlib.Algebra.Group.Nat.Defs

set_option autoImplicit false

namespace CodeRetrieval.Embedding

theorem toNat_pattern (a b c d : UInt8) : (pattern a b c d).toNat =
    a.toNat + 2 ^ 8 * b.toNat + 2 ^ 16 * c.toNat + 2 ^ 24 * d.toNat := by
  have ha := a.toNat_lt
  have hb := b.toNat_lt
  have hc := c.toNat_lt
  have hd := d.toNat_lt
  have fits : ∀ n k : Nat, n < 2 ^ 8 → k ≤ 24 → n <<< k % 2 ^ 32 = n <<< k := by
    intro n k hn hk
    have hpow : 2 ^ k ≤ 2 ^ 24 := Nat.pow_le_pow_right (by omega) hk
    refine Nat.mod_eq_of_lt ?_
    rw [Nat.shiftLeft_eq]
    calc n * 2 ^ k ≤ (2 ^ 8 - 1) * 2 ^ 24 := Nat.mul_le_mul (by omega) hpow
      _ < 2 ^ 32 := by omega
  -- what stands before a byte has no bit in the place of the byte
  have place : ∀ low high k : Nat, low < 2 ^ k → low ||| high <<< k = low + 2 ^ k * high := by
    intro low high k hlow
    rw [Nat.or_comm, Nat.shiftLeft_eq, Nat.mul_comm, ← Nat.two_pow_add_eq_or_of_lt hlow,
      Nat.add_comm]
  simp only [pattern, UInt32.toNat_or, UInt32.toNat_shiftLeft, UInt8.toNat_toUInt32,
    UInt32.reduceToNat, Nat.reduceMod]
  rw [fits _ 8 hb (by omega), fits _ 16 hc (by omega), fits _ 24 hd (by omega),
    place _ _ 8 (by omega), place _ _ 16 (by omega), place _ _ 24 (by omega)]

theorem pattern_bytes (w : UInt32) :
    pattern w.toUInt8 (w >>> 8).toUInt8 (w >>> 16).toUInt8 (w >>> 24).toUInt8 = w := by
  have hw := w.toNat_lt
  apply UInt32.toNat_inj.1
  simp only [toNat_pattern, UInt32.toNat_toUInt8, UInt32.toNat_shiftRight, UInt32.reduceToNat,
    Nat.reduceMod, Nat.shiftRight_eq_div_pow]
  omega

theorem patternBytes_pattern (a b c d : UInt8) : patternBytes (pattern a b c d) = [a, b, c, d] := by
  have ha := a.toNat_lt
  have hb := b.toNat_lt
  have hc := c.toNat_lt
  have hd := d.toNat_lt
  simp only [patternBytes, List.cons.injEq, and_true, ← UInt8.toNat_inj, UInt32.toNat_toUInt8,
    UInt32.toNat_shiftRight, toNat_pattern, UInt32.reduceToNat, Nat.reduceMod,
    Nat.shiftRight_eq_div_pow]
  omega

theorem ofBytes_toBytes (v : Embedding) : ofBytes (toBytes v) = v := by
  induction v with
  | nil => rfl
  | cons w v ih =>
    change ofBytes (patternBytes w ++ toBytes v) = w :: v
    simp only [patternBytes, List.cons_append, List.nil_append, ofBytes, pattern_bytes, ih]

theorem toBytes_ofBytes (bytes : List UInt8) :
    toBytes (ofBytes bytes) = bytes.take (bytes.length / 4 * 4) := by
  induction bytes using ofBytes.induct with
  | case1 a b c d rest ih =>
    have hlength : (a :: b :: c :: d :: rest).length / 4 * 4 = rest.length / 4 * 4 + 4 := by
      simp only [List.length_cons]
      omega
    rw [hlength, ofBytes, toBytes, List.flatMap_cons, patternBytes_pattern]
    exact congrArg ([a, b, c, d] ++ ·) ih
  | case2 bytes hshort =>
    have hlength : bytes.length / 4 = 0 := by
      refine Nat.div_eq_of_lt (Nat.lt_of_not_le fun hlong => ?_)
      match bytes, hlong with
      | a :: b :: c :: d :: rest, _ => exact hshort a b c d rest rfl
    rw [hlength, Nat.zero_mul, List.take_zero, ofBytes.eq_2 bytes hshort]
    rfl

/-- The front of some bytes that holds whole patterns, as far as it goes. -/
structure WholePart (bytes part : List UInt8) : Prop where
  front : part <+: bytes
  whole : 4 ∣ part.length
  longest : ∀ p, p <+: bytes → 4 ∣ p.length → p.length ≤ part.length

theorem wholePart_take (bytes : List UInt8) :
    WholePart bytes (bytes.take (bytes.length / 4 * 4)) where
  front := List.take_prefix _ _
  whole := by
    rw [List.length_take]
    omega
  longest p hp hwhole := by
    have hlength := hp.length_le
    rw [List.length_take]
    omega

/-- Vectors and bytes go into each other bit by bit; a remainder of less than a pattern is lost. -/
theorem bytes_roundTrip (v : Embedding) (bytes : List UInt8) :
    ofBytes (toBytes v) = v ∧ WholePart bytes (toBytes (ofBytes bytes)) := by
  refine ⟨ofBytes_toBytes v, ?_⟩
  rw [toBytes_ofBytes]
  exact wholePart_take bytes

-- A number that is none, with its payload, and a negative zero, before two bytes too many.
example : ofBytes [0x01, 0x00, 0xc0, 0x7f, 0x00, 0x00, 0x00, 0x80, 0xff, 0x00] =
    [0x7fc00001, 0x80000000] := by
  decide

end CodeRetrieval.Embedding
