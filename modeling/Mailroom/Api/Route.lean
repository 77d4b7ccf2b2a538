import Mailroom.Text.Cut
import Mailroom.Job.Control

/-!
The places of the interface, by their paths, and what can be done at each, by methods.
-/

namespace Mailroom

/-- What an operator may do to a job by name. -/
inductive JobVerb where
  | pause
  | resume
  | cancel
  | retry
deriving DecidableEq, Repr

/-- A place of the interface; segments of its path are still encoded. -/
inductive Place where
  | health
  | live
  | ready
  | detailed
  | send
  | sendRecord (id : String)
  | servers
  | jobs
  | job (id : String)
  | jobVerb (id : String) (verb : JobVerb)
  | domain (name : String)
  | deployment (name server : String)
deriving DecidableEq, Repr

namespace Place

/-- The place below the versioned root. -/
def ofVersioned? : List String → Option Place
  | ["send"] => some .send
  | ["sends", id] => some (.sendRecord id)
  | ["servers"] => some .servers
  | ["jobs"] => some .jobs
  | ["jobs", id] => some (.job id)
  | ["jobs", id, "pause"] => some (.jobVerb id .pause)
  | ["jobs", id, "resume"] => some (.jobVerb id .resume)
  | ["jobs", id, "cancel"] => some (.jobVerb id .cancel)
  | ["jobs", id, "retry"] => some (.jobVerb id .retry)
  | ["domains", name] => some (.domain name)
  | ["domains", name, "deployments", server] => some (.deployment name server)
  | _ => none

/-- The place of a path; its last segment may not be empty. -/
def ofPath? (path : String) : Option Place :=
  match Text.split '/' path with
  | "" :: segments =>
      if segments.getLast? = some "" then none
      else match segments with
        | ["health"] => some .health
        | ["health", "live"] => some .live
        | ["health", "ready"] => some .ready
        | ["health", "detailed"] => some .detailed
        | "api" :: "v1" :: rest => ofVersioned? rest
        | _ => none
  | _ => none

def isOpen : Place → Bool
  | health | live | ready | detailed => true
  | _ => false

def methods : Place → List String
  | health | live | ready | detailed | sendRecord _ | servers | job _ => ["GET"]
  | send | jobVerb _ _ => ["POST"]
  | jobs => ["GET", "POST"]
  | domain _ => ["GET", "PATCH"]
  | deployment _ _ => ["POST", "DELETE"]

/-- The method that a request is handled as: one for the head is one to get. -/
def method? (p : Place) (method : String) : Option String :=
  let method := if method = "HEAD" then "GET" else method
  if p.methods.contains method then some method else none

end Place

end Mailroom
