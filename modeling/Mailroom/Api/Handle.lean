import Mailroom.Access.Authenticate
import Mailroom.Api.Answer
import Mailroom.Api.Route
import Mailroom.Domain.Sync
import Mailroom.Job.Create
import Mailroom.Mta.Probe
import Mailroom.Send.Direct

/-!
What is done at each place of the interface.  A request is read first, then the scope of its key is
checked, and only then is anything done.
-/

namespace Mailroom

/-- What the interface depends on. -/
structure Interface where
  router : Router
  standard : StrategyKind
  hasDatabase : Bool
deriving DecidableEq, Repr

/-- The work on a request. -/
abbrev Handling := Service ApiError ApiAnswer

namespace Interface

def registry (i : Interface) : Registry := i.router.registry

/-- A part that ends in an error of its own. -/
def within {ε α : Type} (cause : ε → ApiError) (part : Service ε α) : Service ApiError α :=
  part.adapt cause

/-- A value that was taken out of the request. -/
def reading {α : Type} (value : Except Unreadable α) : Service ApiError α :=
  liftExcept (value.mapError ApiError.unreadable)

/-- The text that a segment of the path stands for. -/
def segment (text : String) : Service ApiError String :=
  Service.found (.unreadable .path) (Text.segmentText? text)

/-- The identifier that a segment of the path spells. -/
def identifier (text : String) : Service ApiError Uuid := do
  Service.found (.unreadable .path) (Uuid.parse? (← segment text))

def checkScope (key : ApiKey) (scope : String) : Service ApiError Unit :=
  if key.hasScope scope then pure () else throw (.scopeMissing scope)

/-- A limit of a key; a negative one limits nothing. -/
def limitOf (limit : Int) : Nat := limit.toNat

/-- Send one message now, within the limits of the key. -/
def sendMessage (i : Interface) (key : ApiKey) (request : SendRequest) : Handling := do
  checkScope key scopeSend
  let name := key.id.display
  let perMinute := limitOf key.perMinute
  let perHour := limitOf key.perHour
  if ← Service.request (.allow name perMinute perHour) then
    let receipt ← within .dispatch (request.sendNow i.router (some key))
    return .ok receipt.toJson
  else
    throw (.rateLimited (← Service.request (.remaining name perMinute perHour)))

/-- Whether a key may see a record: its own, or any if it may administrate. -/
def maySee (key : ApiKey) (s : SendRecord) : Bool :=
  s.keyId == some key.id || key.hasScope scopeAdmin

def showSend (key : ApiKey) (id : Uuid) : Handling := do
  checkScope key scopeSend
  let record ← within .dispatch (Service.store (.send id))
  match record.filter (maySee key) with
  | some s => return .ok (ApiAnswer.sendJson s)
  | none => throw (.notFound "Send not found")

def listJobs (key : ApiKey) (status : Option String) (limit offset : Int) : Handling := do
  checkScope key scopeAdmin
  let status ← match status with
    | none => pure none
    | some text =>
        match Vocabulary.ofWord? text with
        | some s => pure (some s)
        | none => throw (.badField ("Invalid job status: " ++ text))
  let page ← within .job (JobControl.list status (max 1 (min 500 limit)) (max 0 offset))
  return .ok (page.toJson ApiAnswer.jobJson)

def createJob (i : Interface) (key : ApiKey) (request : JobRequest) : Handling := do
  checkScope key scopeAdmin
  let job ← within .job (request.create i.registry i.standard)
  return ⟨201, some (ApiAnswer.jobJson job)⟩

/-- Do something with a job, and show it. -/
def withJob (key : ApiKey) (work : Service JobError Job) : Handling := do
  checkScope key scopeAdmin
  return .ok (ApiAnswer.jobJson (← within .job work))

def retryFields : Json.Fields RetryAction := .required "action" .word

def showDomain (key : ApiKey) (name : String) : Handling := do
  checkScope key scopeAdmin
  return .ok (ApiAnswer.domainJson (← within .dispatch (DomainSync.load name)))

def changeDomain (key : ApiKey) (name : String) (patch : DomainPatch) : Handling := do
  checkScope key scopeAdmin
  let _ ← within .dispatch (DomainSync.update name patch)
  return .ok (ApiAnswer.domainJson (← within .dispatch (DomainSync.load name)))

def deploy (i : Interface) (key : ApiKey) (name server : String) : Handling := do
  checkScope key scopeAdmin
  let d ← within .dispatch (DomainSync.deploy i.registry name server)
  return .ok (ApiAnswer.deploymentJson d)

def undeploy (i : Interface) (key : ApiKey) (name server : String) : Handling := do
  checkScope key scopeAdmin
  if ← within .dispatch (DomainSync.undeploy i.registry name server) then return ⟨204, none⟩
  else throw (.notFound (name ++ " is not deployed to " ++ server))

def listServers (i : Interface) (key : ApiKey) : Handling := do
  checkScope key scopeAdmin
  let found ← ExceptT.lift i.registry.probeAll
  return .ok (.obj [("servers", .arr (found.map ServerHealth.toJson))])

/-- What a probe of the database found: the store in memory has none. -/
inductive DatabaseHealth where
  | skipped
  | healthy
  | unhealthy (error : String)
deriving DecidableEq, Repr

def databaseHealth (i : Interface) : Program DatabaseHealth :=
  if i.hasDatabase then do
    match ← Program.request .ping with
    | .ok () => return .healthy
    | .error failure => return .unhealthy failure.message
  else return .skipped

def DatabaseHealth.isUsable : DatabaseHealth → Bool
  | unhealthy _ => false
  | _ => true

/-- Write what a probe of the database found; it took no time worth telling. -/
def DatabaseHealth.toJson : DatabaseHealth → Json
  | skipped => .obj [("status", .str "skipped")]
  | healthy => .obj [("status", .str "healthy"), ("latency_ms", .int 0)]
  | unhealthy error => .obj [("status", .str "unhealthy"), ("error", .str error)]

/-- Whether mail can be taken: the store can be used and there is a server. -/
def readiness (i : Interface) : Handling := do
  let database ← ExceptT.lift i.databaseHealth
  return ⟨if database.isUsable && !i.registry.servers.isEmpty then 200 else 503, none⟩

def detailedHealth (i : Interface) : Handling := do
  let database ← ExceptT.lift i.databaseHealth
  let found ← ExceptT.lift i.registry.probeAll
  let isHealthy := database.isUsable && found.any fun h => h.error.isNone
  return .ok (.obj
    [("status", .str (if isHealthy then "healthy" else "degraded")), ("database", database.toJson),
      ("servers", .arr (found.map ServerHealth.toJson))])

/-- Handle a request at a place that is open to everyone. -/
def handleOpen (i : Interface) : Place → Handling
  | .health => return .ok (.obj [("status", .str "healthy")])
  | .live => return ⟨200, none⟩
  | .ready => i.readiness
  | .detailed => i.detailedHealth
  | _ => throw .noSuchPlace

def handleKeyed (i : Interface) (key : ApiKey) (r : ApiRequest) (method : String) :
    Place → Handling
  | .send => do i.sendMessage key (← reading (r.json SendRequest.fields.decoder))
  | .sendRecord id => do showSend key (← identifier id)
  | .servers => i.listServers key
  | .jobs =>
      if method = "GET" then do
        let status ← reading (r.field? "status")
        let limit ← reading (r.numberField "limit" 50)
        let offset ← reading (r.numberField "offset" 0)
        listJobs key status limit offset
      else do i.createJob key (← reading (r.json JobRequest.fields.decoder))
  | .job id => do
      let id ← identifier id
      withJob key (JobControl.get id)
  | .jobVerb id verb => do
      let id ← identifier id
      match verb with
      | .pause => withJob key (JobControl.pause id)
      | .resume => withJob key (JobControl.resume id)
      | .cancel => withJob key (JobControl.cancel id)
      | .retry => do
          let action ← reading (r.json retryFields.decoder)
          withJob key (JobControl.retry id action)
  | .domain name => do
      let name ← segment name
      if method = "GET" then showDomain key name
      else changeDomain key name (← reading (r.json DomainPatch.decoder))
  | .deployment name server => do
      let name ← segment name
      let server ← segment server
      if method = "POST" then i.deploy key name server else i.undeploy key name server
  | .health | .live | .ready | .detailed => throw .noSuchPlace

def keyOf (r : ApiRequest) : Service ApiError ApiKey := do
  let secret ← Service.found .noKey
    (Access.presented? (r.header? "authorization") (r.header? "x-api-key"))
  within (fun
    | .unknown => .noKey
    | .unavailable => .keysUnavailable) (Access.authenticate secret)

def handle (i : Interface) (r : ApiRequest) : Handling := do
  let place ← Service.found .noSuchPlace (Place.ofPath? r.path)
  if place.isOpen then
    let _ ← Service.found .noSuchMethod (place.method? r.method)
    i.handleOpen place
  else
    let key ← keyOf r
    let method ← Service.found .noSuchMethod (place.method? r.method)
    i.handleKeyed key r method place

/-- Answer a request; one for the head only is answered without a body. -/
def respond (i : Interface) (r : ApiRequest) : Program ApiAnswer := do
  let answer ← match ← (i.handle r).run with
    | .ok answer => pure answer
    | .error e => pure e.answer
  return if r.method = "HEAD" then { answer with body := none } else answer

end Interface

end Mailroom
