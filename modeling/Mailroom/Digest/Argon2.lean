import Mailroom.Digest.Blake2b

/-!
The Argon2 function that makes passwords costly to guess, in its three variants and both versions.
A matrix of blocks of 128 words is filled lane by lane; each block mixes the one before it with
another one, chosen by the data or independently of it.
-/

namespace Mailroom.Digest.Argon2

/-- How a block's partner is chosen: by the data, independently of it, or the latter only for the
first half of the first pass. -/
inductive Variant where
  | dataDependent
  | dataIndependent
  | hybrid
deriving DecidableEq, Repr

def Variant.number : Variant → Nat
  | .dataDependent => 0
  | .dataIndependent => 1
  | .hybrid => 2

/-- What a hash was made with: kibibytes of memory, passes, lanes and bytes of output. -/
structure Cost where
  variant : Variant
  version : Nat
  memory : Nat
  passes : Nat
  lanes : Nat
  output : Nat
deriving Repr

/-- A block of 128 words. -/
abbrev Block := Array UInt64

/-- A digest of any length, chained from digests of 64 bytes. -/
def stretched (size : Nat) (input : List UInt8) : List UInt8 :=
  let first := littleEndian 4 size ++ input
  if size ≤ 64 then Blake2b.digest size first
  else
    let links := (size + 31) / 32 - 2
    let (bytes, last) := (List.range (links - 1)).foldl (fun (bytes, link) _ =>
      let next := Blake2b.digest 64 link
      (bytes ++ next.take 32, next)) ((Blake2b.digest 64 first).take 32, Blake2b.digest 64 first)
    bytes ++ Blake2b.digest (size - 32 * links) last

/-- Addition that also adds twice the product of the lower halves. -/
@[inline] def add (x y : UInt64) : UInt64 :=
  x + y + 2 * (x &&& 0xFFFFFFFF) * (y &&& 0xFFFFFFFF)

@[inline] def turn (w n : UInt64) : UInt64 := (w >>> n) ||| (w <<< (64 - n))

def mix (b : Block) (ia ib ic id : Nat) : Block :=
  let a := add b[ia]! b[ib]!
  let d := turn (b[id]! ^^^ a) 32
  let c := add b[ic]! d
  let e := turn (b[ib]! ^^^ c) 24
  let a := add a e
  let d := turn (d ^^^ a) 16
  let c := add c d
  let e := turn (e ^^^ c) 63
  (((b.set! ia a).set! ib e).set! ic c).set! id d

/-- One round over the sixteen words at the places that `place` gives. -/
def round (b : Block) (place : Nat → Nat) : Block :=
  Blake2b.quarters.foldl (fun b (i, j, k, l) => mix b (place i) (place j) (place k) (place l)) b

def combine (x y : Block) : Block := Array.zipWith (· ^^^ ·) x y

/-- Compress two blocks into one: rounds over the rows, then over the columns. -/
def compress (x y : Block) : Block :=
  let r := combine x y
  let rows := (List.range 8).foldl (fun b i => round b fun j => 16 * i + j) r
  let columns := (List.range 8).foldl
    (fun b i => round b fun j => 2 * i + 16 * (j / 2) + j % 2) rows
  combine columns r

def zeroBlock : Block := Array.replicate 128 0

def blockOfBytes (bytes : List UInt8) : Block :=
  ((blocksOf 8 bytes).map fun w => UInt64.ofNat (ofLittleEndian w)).toArray

def bytesOfBlock (b : Block) : List UInt8 := b.toList.flatMap fun w => littleEndian 8 w.toNat

namespace Cost

variable (cost : Cost)

/-- Blocks in a quarter of a lane. -/
def segment : Nat := cost.memory / (4 * cost.lanes)

/-- Blocks in a lane. -/
def lane : Nat := 4 * cost.segment

/-- The digest that everything starts from. -/
def seed (password salt extra : List UInt8) : List UInt8 :=
  let sized (bytes : List UInt8) := littleEndian 4 bytes.length ++ bytes
  Blake2b.digest 64
    (littleEndian 4 cost.lanes ++ littleEndian 4 cost.output ++ littleEndian 4 cost.memory ++
      littleEndian 4 cost.passes ++ littleEndian 4 cost.version ++
      littleEndian 4 cost.variant.number ++ sized password ++ sized salt ++ sized [] ++ sized extra)

/-- The memory with the first two blocks of every lane filled in. -/
def start (seed : List UInt8) : Array Block :=
  (List.range cost.lanes).foldl (fun memory l =>
    (List.range 2).foldl (fun memory i =>
      memory.set! (l * cost.lane + i)
        (blockOfBytes (stretched 1024 (seed ++ littleEndian 4 i ++ littleEndian 4 l)))) memory)
    (Array.replicate (cost.lanes * cost.lane) zeroBlock)

/-- The words that choose partners independently of the data, 128 at a time. -/
def addresses (pass laneNo slice counter : Nat) : Block :=
  let words :=
    [pass, laneNo, slice, cost.lanes * cost.lane, cost.passes, cost.variant.number, counter]
  let input := (words.map UInt64.ofNat ++ List.replicate 121 0).toArray
  compress zeroBlock (compress zeroBlock input)

/-- The place in the memory of the partner that a random word chooses. -/
def partner (pass laneNo slice index : Nat) (random : UInt64) : Nat :=
  let first := (random &&& 0xFFFFFFFF).toNat
  let second := (random >>> 32).toNat
  let other := if pass = 0 ∧ slice = 0 then laneNo else second % cost.lanes
  let finished := if pass = 0 then slice * cost.segment else cost.lane - cost.segment
  let area :=
    if other = laneNo then finished + index - 1
    else if index = 0 then finished - 1 else finished
  let distance := area * (first * first / UInt32.size) / UInt32.size
  let origin := if pass = 0 ∨ slice = 3 then 0 else (slice + 1) * cost.segment
  other * cost.lane + (origin + area - 1 - distance) % cost.lane

/-- Whether a segment chooses partners independently of its data. -/
def independent (pass slice : Nat) : Bool :=
  match cost.variant with
  | .dataDependent => false
  | .dataIndependent => true
  | .hybrid => pass == 0 && slice < 2

def fillSegment (pass slice : Nat) (memory : Array Block) (laneNo : Nat) : Array Block :=
  let free := cost.independent pass slice
  let skipped := if pass = 0 ∧ slice = 0 then 2 else 0
  let start := if free then cost.addresses pass laneNo slice 1 else zeroBlock
  ((List.range (cost.segment - skipped)).foldl (fun (memory, addresses) step =>
    let index := skipped + step
    let addresses :=
      if free ∧ index % 128 = 0 then cost.addresses pass laneNo slice (index / 128 + 1)
      else addresses
    let column := slice * cost.segment + index
    let place := laneNo * cost.lane + column
    let before := laneNo * cost.lane + (column + cost.lane - 1) % cost.lane
    let random := if free then addresses[index % 128]! else (memory[before]!)[0]!
    let mixed := compress memory[before]! memory[cost.partner pass laneNo slice index random]!
    let mixed := if pass > 0 ∧ cost.version ≥ 19 then combine mixed memory[place]! else mixed
    (memory.set! place mixed, addresses)) (memory, start)).1

def fill (memory : Array Block) : Array Block :=
  (List.range cost.passes).foldl (fun memory pass =>
    (List.range 4).foldl (fun memory slice =>
      (List.range cost.lanes).foldl (cost.fillSegment pass slice) memory) memory) memory

def hash (password salt extra : List UInt8) : List UInt8 :=
  let memory := cost.fill (cost.start (cost.seed password salt extra))
  let last := (List.range cost.lanes).foldl
    (fun b l => combine b memory[l * cost.lane + cost.lane - 1]!) zeroBlock
  stretched cost.output (bytesOfBlock last)

end Cost

end Mailroom.Digest.Argon2
