import Mailroom.Mta.Registry
import Mailroom.Program

/-!
Keeping servers in step with the settings of domains: settings are pushed to servers one by one, and
a change to them marks the servers that still hold the old ones.
-/

namespace Mailroom.DomainSync

def load (name : String) : Service DispatchError DomainConfig := do
  Service.found (.domainNotFound name) (← Service.store (.domainByName name))

def checkServer (registry : Registry) (server : String) : Service DispatchError Unit :=
  if registry.contains server then pure ()
  else throw (.invalidRequest ("server " ++ server ++ " is not configured"))

/-- Push the settings of a domain to a server, and record how it went. -/
def deploy (registry : Registry) (name server : String) : Service DispatchError Deployment := do
  let config ← load name
  checkServer registry server
  match ← Service.mta server (.push (.ofDomain config.domain)) with
  | .ok () =>
      Service.store
        (.putDeployment config.domain.id server .deployed (some config.domain.configHash) none)
  | .error e => do
      let _ ← Service.store (.putDeployment config.domain.id server .failed none (some e.message))
      throw (.serverFailed server e)

/-- Remove a domain from a server; the reply says whether it was deployed there. -/
def undeploy (registry : Registry) (name server : String) : Service DispatchError Bool := do
  let config ← load name
  checkServer registry server
  match ← Service.mta server (.remove config.domain.name) with
  | .ok () => Service.store (.dropDeployment config.domain.id server)
  | .error e => throw (.serverFailed server e)

def update (name : String) (patch : DomainPatch) : Service DispatchError Domain := do
  let config ← load name
  let domain ← Service.found (.domainNotFound name)
    (← Service.store (.updateDomain config.domain.id patch))
  let _ ← Service.store (.markOutdated domain.id domain.configHash)
  return domain

end Mailroom.DomainSync
