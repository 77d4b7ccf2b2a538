import Mailroom.Access.Secret
import Mailroom.Program

/-!
Who may use the interface: a presented secret is looked up by its first bytes and checked against
the hashes of the keys found.
-/

namespace Mailroom.Access

/-- Why a secret does not let anyone in. -/
inductive Denial where
  | unknown
  | unavailable
deriving DecidableEq, Repr

/-- Only printable characters of one byte, and tabs, can be read out of a header. -/
def isReadable (value : String) : Bool :=
  value.toList.all fun c => c == '\t' || (0x20 ≤ c.toNat && c.toNat < 0x7F)

/-- The secret that a request presents, in one of two headers. -/
def presented? (authorization apiKey : Option String) : Option String :=
  let bearer := (authorization.filter isReadable).bind (Text.after? "Bearer ")
  ((bearer.or (apiKey.filter isReadable)).map Text.trimmed).filter fun secret => secret != ""

/-- The key that a secret belongs to.  That it was used is recorded in the background. -/
def authenticate (secret : String) : Service Denial ApiKey := do
  let lead ← Service.found .unknown (leadOf? secret)
  match ← Service.request (.store (.keysByLead lead)) with
  | .error _ => throw .unavailable
  | .ok candidates => do
      let key ← Service.found .unknown (candidates.find? fun k => verifies secret k.hash)
      if key.isExpired (← Service.request .now) then throw .unknown
      Service.request (.storeLater (.touchKey key.id))
      return key

end Mailroom.Access
