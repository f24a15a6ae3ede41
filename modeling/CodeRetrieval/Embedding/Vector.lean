/-!
Embedding vectors. A component is held by its 32-bit pattern, so that storing a vector loses
nothing and two vectors are the same exactly when their patterns are.
-/

set_option autoImplicit false

namespace CodeRetrieval

abbrev Embedding := List UInt32

namespace Embedding

def ofFloats (xs : List Float32) : Embedding := xs.map Float32.toBits

def toFloats (v : Embedding) : List Float32 := v.map Float32.ofBits

def patternBytes (w : UInt32) : List UInt8 :=
  [w.toUInt8, (w >>> 8).toUInt8, (w >>> 16).toUInt8, (w >>> 24).toUInt8]

def pattern (a b c d : UInt8) : UInt32 :=
  a.toUInt32 ||| b.toUInt32 <<< 8 ||| c.toUInt32 <<< 16 ||| d.toUInt32 <<< 24

def toBytes (v : Embedding) : List UInt8 := v.flatMap patternBytes

/-- The vector stored under some bytes; up to three bytes at the end are not looked at. -/
def ofBytes : List UInt8 → Embedding
  | a :: b :: c :: d :: rest => pattern a b c d :: ofBytes rest
  | _ => []

def epsilon : Float32 := Float32.ofBits 0x34000000

structure Sums where
  dot : Float32
  left : Float32
  right : Float32

def sums : List (Float32 × Float32) → Sums → Sums
  | [], s => s
  | (x, y) :: rest, s => sums rest ⟨s.dot + x * y, s.left + x * x, s.right + y * y⟩

/-- Cosine of the angle between two vectors; zero for empty ones, for different lengths and for
vectors of almost no length. -/
def cosine (a b : Embedding) : Float32 :=
  if a.length ≠ b.length ∨ a.isEmpty then 0
  else
    let s := sums (a.toFloats.zip b.toFloats) ⟨0, 0, 0⟩
    let scale := s.left.sqrt * s.right.sqrt
    if scale < epsilon then 0 else s.dot / scale

end Embedding

end CodeRetrieval
