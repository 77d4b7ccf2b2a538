import Mailroom.Digest.Argon2
import Mailroom.Digest.Sha2
import Mailroom.Text.Base64
import Mailroom.Text.Cut

/-!
Stored hashes of secrets.  A hash is either a SHA-256 digest in hexadecimal or an Argon2 hash in the
notation of fields between dollar signs.
-/

namespace Mailroom.Access

/-- A hash in the notation of fields: what it was made with, the salt, and the digest. -/
structure Phc where
  cost : Digest.Argon2.Cost
  salt : List UInt8
  extra : List UInt8
  digest : List UInt8

namespace Phc

def isName (s : String) : Bool :=
  s != "" && s.length ≤ 32 && s.toList.all fun c => c.isLower || c.isDigit || c == '-'

def isValue (s : String) : Bool :=
  s.utf8ByteSize ≤ 64 && s.toList.all fun c => c.isAlphanum || "/+.-".toList.contains c

/-- A decimal number of 32 bits without leading zeros. -/
def decimal? (s : String) : Option Nat :=
  let ds := s.toList
  if ds.isEmpty ∨ ¬ ds.all Char.isDigit ∨ (ds.head? = some '0' ∧ ds.length > 1) then none
  else
    let n := ds.foldl (fun n c => n * 10 + (c.toNat - 48)) 0
    if n < 4294967296 then some n else none

def pair? (s : String) : Option (String × String) :=
  match Text.split '=' s with
  | [name, value] => if isName name ∧ isValue value then some (name, value) else none
  | _ => none

def parameters? (s : String) : Option (List (String × String)) :=
  if s.utf8ByteSize > 127 then none else (Text.split ',' s).mapM pair?

def variant? : String → Option Digest.Argon2.Variant
  | "argon2d" => some .dataDependent
  | "argon2i" => some .dataIndependent
  | "argon2id" => some .hybrid
  | _ => none

def setParameter (cost : Digest.Argon2.Cost × List UInt8) (parameter : String × String) :
    Option (Digest.Argon2.Cost × List UInt8) :=
  match parameter with
  | ("m", value) => (decimal? value).map fun n => ({ cost.1 with memory := n }, cost.2)
  | ("t", value) => (decimal? value).map fun n => ({ cost.1 with passes := n }, cost.2)
  | ("p", value) => (decimal? value).map fun n => ({ cost.1 with lanes := n }, cost.2)
  | ("keyid", value) =>
      ((Text.base64? value).filter fun bytes => bytes.length ≤ 8).map fun _ => cost
  | ("data", value) =>
      ((Text.base64? value).filter fun bytes => bytes.length ≤ 32).map fun bytes => (cost.1, bytes)
  | _ => none

/-- Whether a hash can be made at a cost. -/
def isPossible (cost : Digest.Argon2.Cost) : Bool :=
  8 ≤ cost.memory && 8 * cost.lanes ≤ cost.memory && 1 ≤ cost.passes && 1 ≤ cost.lanes &&
    cost.lanes ≤ 0xFFFFFF && (cost.version == 16 || cost.version == 19)

def isSalt (s : String) : Bool := 4 ≤ s.utf8ByteSize && isValue s

def digest? (s : String) : Option (List UInt8) :=
  if s.utf8ByteSize > 86 then none
  else (Text.base64? s).filter fun bytes => 10 ≤ bytes.length && bytes.length ≤ 64

/-- The field of the version, if the fields start with one. -/
def version? : List String → Option (Nat × List String)
  | [] => some (19, [])
  | field :: rest =>
      match Text.after? "v=" field with
      | some value =>
          if field.toList.contains ',' then some (19, field :: rest)
          else if isValue value then (decimal? value).map fun n => (n, rest)
          else none
      | none => some (19, field :: rest)

/-- The field of the parameters, if the fields start with one. -/
def leadParameters? : List String → Option (List (String × String) × List String)
  | [] => some ([], [])
  | field :: rest =>
      if field.toList.contains '=' then (parameters? field).map fun ps => (ps, rest)
      else some ([], field :: rest)

/-- Read the notation; a hash without salt or digest verifies nothing and is refused. -/
def parse? (s : String) : Option Phc :=
  match Text.split '$' s with
  | "" :: algorithm :: fields => do
      if ¬ isName algorithm then none
      let (version, fields) ← version? fields
      let (parameters, fields) ← leadParameters? fields
      match fields with
      | [salt, digest] =>
          let digest ← digest? digest
          let variant ← variant? algorithm
          let start : Digest.Argon2.Cost := ⟨variant, version, 19456, 2, 1, digest.length⟩
          let (cost, extra) ← parameters.foldlM setParameter (start, [])
          if ¬ isSalt salt ∨ ¬ isPossible cost then none
          else
            let salt ← (Text.base64? salt).filter fun bytes => 8 ≤ bytes.length
            some ⟨cost, salt, extra, digest⟩
      | _ => none
  | _ => none

end Phc

/-- The length in bytes of the part of a secret that is stored in the clear. -/
def leadLength : Nat := 8

/-- The first `size` bytes of a text; none if it is shorter or a character lies across the end. -/
def bytesOf? (size : Nat) : List Char → Option (List Char)
  | [] => if size = 0 then some [] else none
  | c :: cs =>
      if size = 0 then some []
      else if c.utf8Size ≤ size then (bytesOf? (size - c.utf8Size) cs).map (c :: ·)
      else none

/-- The part of a secret that it is looked up by. -/
def leadOf? (secret : String) : Option String :=
  (bytesOf? leadLength secret.toList).map String.ofList

/-- Whether a secret belongs to a stored hash. -/
def verifies (secret stored : String) : Bool :=
  if (Text.after? "$argon2" stored).isSome then
    match Phc.parse? stored with
    | some phc => phc.cost.hash secret.toUTF8.toList phc.salt phc.extra == phc.digest
    | none => false
  else Digest.sha256Hex secret == stored

end Mailroom.Access
