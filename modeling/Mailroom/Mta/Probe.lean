import Mailroom.Mta.Registry
import Mailroom.Program

/-!
Probing all servers at once.
-/

namespace Mailroom.Registry

def probe (server : Server) : Program ServerHealth := do
  match ← Program.request (.mta server.name .health) with
  | .ok () => return ⟨server, none⟩
  | .error e => return ⟨server, some e.message⟩

/-- Probe every server, side by side. -/
def probeAll (r : Registry) : Program (List ServerHealth) := .forEach .free r.servers probe

end Mailroom.Registry
