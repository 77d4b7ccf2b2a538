import Mailroom.Bindings
import Mailroom.Settings.Basic

/-!
The mail servers that the program knows, in the order in which they were first named.
-/

namespace Mailroom

structure Server where
  name : String
  url : String
  weight : Nat
deriving DecidableEq, Repr, Inhabited

/-- The known servers; no two have one name. -/
structure Registry where
  servers : List Server
deriving DecidableEq, Repr, Inhabited

namespace Registry

def empty : Registry := ⟨[]⟩

/-- Add a server, in place of an earlier one of its name. -/
def register (r : Registry) (server : Server) : Registry := ⟨putBy Server.name server r.servers⟩

def ofSettings (servers : List ServerSettings) : Registry :=
  servers.foldl (fun r s => r.register ⟨s.name, s.url, s.weight⟩) empty

def find? (r : Registry) (name : String) : Option Server := r.servers.find? fun s => s.name == name

def contains (r : Registry) (name : String) : Bool := r.servers.any fun s => s.name == name

def names (r : Registry) : List String := r.servers.map Server.name

/-- The weight of a server; an unknown one weighs one. -/
def weight (r : Registry) (name : String) : Nat := ((r.find? name).map Server.weight).getD 1

end Registry

structure ServerHealth where
  server : Server
  error : Option String
deriving DecidableEq, Repr

def ServerHealth.toJson (h : ServerHealth) : Json :=
  .obj
    [("name", .str h.server.name), ("url", .str h.server.url), ("weight", .ofNat h.server.weight),
      ("healthy", .bool h.error.isNone), ("error", .ofOption h.error)]

end Mailroom
