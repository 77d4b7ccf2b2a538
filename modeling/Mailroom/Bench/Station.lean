import Mailroom.Engine.Dispatch

/-!
Mail servers that follow a script.  A server takes some time for a message, answers the calls of
each kind in the order of its script, refuses some recipients, and keeps a record of all it did.
-/

namespace Mailroom.Bench

/-- A mail server that follows a script. -/
structure Station where
  name : String
  delay : Nat := 0
  scripts : Bindings (List (Option ClientError)) := []
  refusals : Bindings ClientError := []
  statuses : Bindings (Except ClientError RemoteStatus) := []
  counts : Bindings Nat := []
  sent : List Message := []
  pushed : List DomainSpec := []
  removed : List String := []
  accepted : Bindings Nat := []
  inFlight : Nat := 0
  busiest : Nat := 0

namespace Station

/-- Give the calls of a kind a new script, and count them from the beginning. -/
def script (s : Station) (kind : String) (replies : List (Option ClientError)) : Station :=
  { s with scripts := Bindings.put kind replies s.scripts, counts := Bindings.put kind 0 s.counts }

/-- The reply to a call after so many others; the last one of a script is repeated. -/
def replyAfter (replies : List (Option ClientError)) (count : Nat) : Option ClientError :=
  (replies[min count (replies.length - 1)]?).bind id

/-- Count a call, and look its reply up. -/
def counted (s : Station) (kind : String) : Option ClientError × Station :=
  let count := (s.counts.lookup kind).getD 0
  (replyAfter ((s.scripts.lookup kind).getD []) count,
    { s with counts := Bindings.put kind (count + 1) s.counts })

def enter (s : Station) : Station :=
  { s with inFlight := s.inFlight + 1, busiest := max s.busiest (s.inFlight + 1) }

def leave (s : Station) : Station := { s with inFlight := s.inFlight - 1 }

/-- What the identifiers of messages to one recipient, and of one job, have in common. -/
def stem (s : Station) (m : Message) : String :=
  s.name ++ ":" ++ m.recipient ++
    match m.headers.get? Engine.jobHeader with
    | some job => ":" ++ job
    | none => ""

def accept (s : Station) (m : Message) : String × Station :=
  let stem := s.stem m
  let count := (s.accepted.lookup stem).getD 0 + 1
  (stem ++ ":" ++ toString count,
    { s with accepted := Bindings.put stem count s.accepted, sent := s.sent ++ [m] })

def statusOf (s : Station) (remoteId : String) : Except ClientError RemoteStatus :=
  (s.statuses.lookup remoteId).getD (.error (.status 404 "unknown message"))

def answer (s : Station) (call : MtaCall) : call.Answer × Station :=
  let (reply, s) := s.counted call.name
  match call with
  | .submit m =>
      let s := s.leave
      match reply.or (s.refusals.lookup m.recipient) with
      | some e => (.error e, s)
      | none =>
          let (remoteId, s) := s.accept m
          (.ok remoteId, s)
  | .status remoteId =>
      match reply with
      | some e => (.error e, s)
      | none => (s.statusOf remoteId, s)
  | .health =>
      match reply with
      | some e => (.error e, s)
      | none => (.ok (), s)
  | .push spec =>
      match reply with
      | some e => (.error e, s)
      | none => (.ok (), { s with pushed := s.pushed ++ [spec] })
  | .remove name =>
      match reply with
      | some e => (.error e, s)
      | none => (.ok (), { s with removed := s.removed ++ [name] })

end Station

end Mailroom.Bench
