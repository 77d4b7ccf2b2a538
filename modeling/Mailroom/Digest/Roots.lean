/-!
The constants that hash functions take from the roots of small primes: digits of irrational numbers,
so that nobody could have chosen them.
-/

namespace Mailroom.Digest

/-- The largest number below `2 ^ bits` whose power does not exceed `n`, found bit by bit. -/
def integerRoot (power n bits : Nat) : Nat :=
  go bits 0
where
  go : Nat → Nat → Nat
    | 0, root => root
    | left + 1, root =>
        let candidate := root + Nat.pow 2 left
        go left (if Nat.pow candidate power ≤ n then candidate else root)

def primesBelow (n : Nat) : List Nat :=
  (List.range n).filter fun p => 2 ≤ p && (List.range p).all fun d => d < 2 || p % d != 0

/-- The first 64 bits after the point of the square root of `p`. -/
def squareRootBits (p : Nat) : UInt64 := (integerRoot 2 (p * Nat.pow 2 128) 70).toUInt64

/-- The first 64 bits after the point of the cube root of `p`. -/
def cubeRootBits (p : Nat) : UInt64 := (integerRoot 3 (p * Nat.pow 2 192) 70).toUInt64

/-- The bits of the square roots of the first sixteen primes. -/
def squareRoots : Array UInt64 := ((primesBelow 54).map squareRootBits).toArray

def cubeRoots : Array UInt64 := ((primesBelow 410).map cubeRootBits).toArray

def upperHalf (w : UInt64) : UInt32 := (w >>> 32).toUInt32

end Mailroom.Digest
