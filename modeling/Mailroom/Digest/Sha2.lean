import Mailroom.Digest.Roots
import Mailroom.Text.Hex

/-!
The SHA-2 hash functions with 256 and 384 bits.  One description of the padding, the message
schedule and the rounds serves both; they differ in the width of their words, in the distances that
words are turned by, and in their constants.
-/

namespace Mailroom.Digest

/-- Three distances by which a word is turned or, in the last place of a schedule, shifted. -/
structure Distances where
  first : Nat
  second : Nat
  third : Nat

/-- What one member of the family fixes. -/
structure Sha2 (W : Type) where
  wordBytes : Nat
  rounds : Nat
  constants : Array W
  start : Array W
  large0 : Distances
  large1 : Distances
  small0 : Distances
  small1 : Distances
  turn : W → Nat → W
  shift : W → Nat → W
  ofNat : Nat → W
  toNat : W → Nat

/-- The `count` low bytes of a number, the most significant first. -/
def bigEndian : (count : Nat) → Nat → List UInt8
  | 0, _ => []
  | count + 1, n => bigEndian count (n / 256) ++ [n.toUInt8]

/-- The number that bytes spell, the most significant first. -/
def ofBigEndian (bytes : List UInt8) : Nat := bytes.foldl (fun n b => n * 256 + b.toNat) 0

/-- Consecutive pieces of `size` elements; a shorter last piece is kept. -/
def blocksOf {α : Type} (size : Nat) (xs : List α) : List (List α) :=
  go xs.length xs
where
  go : Nat → List α → List (List α)
    | 0, _ => []
    | _, [] => []
    | fuel + 1, xs => xs.take size :: go fuel (xs.drop size)

namespace Sha2

variable {W : Type} [Inhabited W] [Add W] [XorOp W] [AndOp W] [Complement W] (v : Sha2 W)

/-- The message with a mark, zeros and its length in bits, a whole number of blocks. -/
def pad (message : List UInt8) : List UInt8 :=
  let block := 16 * v.wordBytes
  let used := message.length + 1 + 2 * v.wordBytes
  let zeros := (block - used % block) % block
  message ++ 0x80 :: List.replicate zeros 0 ++ bigEndian (2 * v.wordBytes) (8 * message.length)

/-- A word turned by three distances, the results combined. -/
def turned (d : Distances) (w : W) : W :=
  v.turn w d.first ^^^ v.turn w d.second ^^^ v.turn w d.third

/-- A word turned by two distances and shifted by the third, the results combined. -/
def shifted (d : Distances) (w : W) : W :=
  v.turn w d.first ^^^ v.turn w d.second ^^^ v.shift w d.third

/-- One word for each round: the block's own words, then combinations of earlier ones. -/
def schedule (block : List UInt8) : Array W :=
  let own := ((blocksOf v.wordBytes block).map fun bytes => v.ofNat (ofBigEndian bytes)).toArray
  (List.range (v.rounds - 16)).foldl (fun ws i =>
    ws.push
      (v.shifted v.small1 ws[i + 14]! + ws[i + 9]! + v.shifted v.small0 ws[i + 1]! + ws[i]!)) own

/-- One round on the eight working words. -/
def round (state : Array W) (constant word : W) : Array W :=
  let a := state[0]!
  let b := state[1]!
  let c := state[2]!
  let e := state[4]!
  let f := state[5]!
  let g := state[6]!
  let choice := (e &&& f) ^^^ (~~~e &&& g)
  let majority := (a &&& b) ^^^ (a &&& c) ^^^ (b &&& c)
  let t1 := state[7]! + v.turned v.large1 e + choice + constant + word
  let t2 := v.turned v.large0 a + majority
  #[t1 + t2, a, b, c, state[3]! + t1, e, f, g]

/-- The state after one more block. -/
def compress (state : Array W) (block : List UInt8) : Array W :=
  let words := v.schedule block
  let worked := (List.range v.rounds).foldl (fun s i => v.round s v.constants[i]! words[i]!) state
  Array.zipWith (· + ·) state worked

/-- The bytes of the state after the whole message. -/
def digest (message : List UInt8) : List UInt8 :=
  let final := (blocksOf (16 * v.wordBytes) (v.pad message)).foldl v.compress v.start
  final.toList.flatMap fun w => bigEndian v.wordBytes (v.toNat w)

end Sha2

def turnRight32 (w : UInt32) (n : Nat) : UInt32 := (w >>> n.toUInt32) ||| (w <<< (32 - n).toUInt32)

def turnRight64 (w : UInt64) (n : Nat) : UInt64 := (w >>> n.toUInt64) ||| (w <<< (64 - n).toUInt64)

/-- The member with words of 32 bits. -/
def narrow : Sha2 UInt32 where
  wordBytes := 4
  rounds := 64
  constants := (cubeRoots.extract 0 64).map upperHalf
  start := (squareRoots.extract 0 8).map upperHalf
  large0 := ⟨2, 13, 22⟩
  large1 := ⟨6, 11, 25⟩
  small0 := ⟨7, 18, 3⟩
  small1 := ⟨17, 19, 10⟩
  turn := turnRight32
  shift := fun w n => w >>> n.toUInt32
  ofNat := UInt32.ofNat
  toNat := UInt32.toNat

/-- The member with words of 64 bits and the start value of the 384-bit digest. -/
def wide : Sha2 UInt64 where
  wordBytes := 8
  rounds := 80
  constants := cubeRoots
  start := squareRoots.extract 8 16
  large0 := ⟨28, 34, 39⟩
  large1 := ⟨14, 18, 41⟩
  small0 := ⟨1, 8, 7⟩
  small1 := ⟨19, 61, 6⟩
  turn := turnRight64
  shift := fun w n => w >>> n.toUInt64
  ofNat := UInt64.ofNat
  toNat := UInt64.toNat

def sha256 (message : List UInt8) : List UInt8 := narrow.digest message

def sha384 (message : List UInt8) : List UInt8 := (wide.digest message).take 48

/-- The SHA-256 digest of a text's UTF-8 bytes, in hexadecimal. -/
def sha256Hex (text : String) : String := Text.hexOfBytes (sha256 text.toUTF8.toList)

/-- The SHA-384 digest of a text's UTF-8 bytes, in hexadecimal. -/
def sha384Hex (text : String) : String := Text.hexOfBytes (sha384 text.toUTF8.toList)

end Mailroom.Digest
