import Mailroom.Digest.Sha2

/-!
The BLAKE2b hash function without a key, for digests of one to 64 bytes.
-/

namespace Mailroom.Digest

/-- The `count` low bytes of a number, the least significant first. -/
def littleEndian : (count : Nat) → Nat → List UInt8
  | 0, _ => []
  | count + 1, n => n.toUInt8 :: littleEndian count (n / 256)

/-- The number that bytes spell, the least significant first. -/
def ofLittleEndian (bytes : List UInt8) : Nat := bytes.foldr (fun b n => n * 256 + b.toNat) 0

namespace Blake2b

/-- The orders in which the rounds take the words of a block. -/
def orders : Array (Array Nat) := #[
  #[0, 1, 2, 3, 4, 5, 6, 7, 8, 9, 10, 11, 12, 13, 14, 15],
  #[14, 10, 4, 8, 9, 15, 13, 6, 1, 12, 0, 2, 11, 7, 5, 3],
  #[11, 8, 12, 0, 5, 2, 15, 13, 10, 14, 3, 6, 7, 1, 9, 4],
  #[7, 9, 3, 1, 13, 12, 11, 14, 2, 6, 5, 10, 4, 0, 15, 8],
  #[9, 0, 5, 7, 2, 4, 10, 15, 14, 1, 11, 12, 6, 8, 3, 13],
  #[2, 12, 6, 10, 0, 11, 8, 3, 4, 13, 7, 5, 15, 14, 1, 9],
  #[12, 5, 1, 15, 14, 13, 4, 10, 0, 7, 6, 3, 9, 2, 8, 11],
  #[13, 11, 7, 14, 12, 1, 3, 9, 5, 0, 15, 4, 8, 6, 2, 10],
  #[6, 15, 14, 9, 11, 3, 0, 8, 12, 2, 13, 7, 1, 4, 10, 5],
  #[10, 2, 8, 4, 7, 6, 1, 5, 15, 11, 9, 14, 3, 12, 13, 0]]

/-- The places of the working words that one mixing step takes together. -/
def quarters : List (Nat × Nat × Nat × Nat) :=
  [(0, 4, 8, 12), (1, 5, 9, 13), (2, 6, 10, 14), (3, 7, 11, 15),
   (0, 5, 10, 15), (1, 6, 11, 12), (2, 7, 8, 13), (3, 4, 9, 14)]

/-- Mix four working words with two words of the block. -/
def mix (v : Array UInt64) (place : Nat × Nat × Nat × Nat) (x y : UInt64) : Array UInt64 :=
  let (ia, ib, ic, id) := place
  let a := v[ia]! + v[ib]! + x
  let d := turnRight64 (v[id]! ^^^ a) 32
  let c := v[ic]! + d
  let b := turnRight64 (v[ib]! ^^^ c) 24
  let a := a + b + y
  let d := turnRight64 (d ^^^ a) 16
  let c := c + d
  let b := turnRight64 (b ^^^ c) 63
  (((v.set! ia a).set! ib b).set! ic c).set! id d

/-- One round over the sixteen working words. -/
def round (words : Array UInt64) (v : Array UInt64) (number : Nat) : Array UInt64 :=
  let order := orders[number % 10]!
  (quarters.zipIdx).foldl (fun v (place, i) =>
    mix v place words[order[2 * i]!]! words[order[2 * i + 1]!]!) v

/-- The state after one more block; `count` bytes have been taken, this block's included. -/
def compress (state : Array UInt64) (block : List UInt8) (count : Nat) (last : Bool) :
    Array UInt64 :=
  let padded := block ++ List.replicate (128 - block.length) 0
  let words := ((blocksOf 8 padded).map fun bytes => UInt64.ofNat (ofLittleEndian bytes)).toArray
  let start := squareRoots.extract 0 8
  let v := state ++ start
  let v := v.set! 12 (v[12]! ^^^ UInt64.ofNat (count % UInt64.size))
  let v := v.set! 13 (v[13]! ^^^ UInt64.ofNat (count / UInt64.size))
  let v := if last then v.set! 14 (~~~v[14]!) else v
  let v := (List.range 12).foldl (round words) v
  (Array.range 8).map fun i => state[i]! ^^^ v[i]! ^^^ v[i + 8]!

/-- The digest of `size` bytes. -/
def digest (size : Nat) (message : List UInt8) : List UInt8 :=
  let start := squareRoots.extract 0 8
  let start := start.set! 0 (start[0]! ^^^ 0x01010000 ^^^ UInt64.ofNat size)
  let blocks := match blocksOf 128 message with
    | [] => [[]]
    | blocks => blocks
  let final := (blocks.zipIdx).foldl (fun state (block, i) =>
    let last := i + 1 == blocks.length
    compress state block (if last then message.length else 128 * (i + 1)) last) start
  (final.toList.flatMap fun w => littleEndian 8 w.toNat).take size

end Blake2b

end Mailroom.Digest
