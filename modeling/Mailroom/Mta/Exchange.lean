import Mailroom.Json.Reader
import Mailroom.Mta.Message
import Mailroom.Mta.Target

/-!
Calls to a mail server as exchanges over HTTP: the request that a call makes, and what the response
to it means.
-/

namespace Mailroom

open Json (Fields)

/-- How a server is reached: what follows its host in its address, and the key it wants. -/
structure MtaAccess where
  suffix : String
  apiKey : Option String
deriving DecidableEq, Repr

structure MtaRequest where
  method : String
  target : String
  authorization : Option String
  body : Option Json

structure MtaResponse where
  code : Nat
  body : String
deriving DecidableEq, Repr

namespace MtaCall

def method : MtaCall → String
  | submit _ => "POST"
  | status _ | health => "GET"
  | push _ => "PUT"
  | remove _ => "DELETE"

def path : MtaCall → String
  | submit _ => "/api/v1/messages"
  | status id => "/api/v1/messages/" ++ id
  | health => "/health"
  | push spec => "/api/v1/domains/" ++ spec.name
  | remove name => "/api/v1/domains/" ++ name

def body : MtaCall → Option Json
  | submit message => some message.toJson
  | push spec => some spec.toJson
  | _ => none

def withoutSlashes (s : String) : String :=
  String.ofList (s.toList.reverse.dropWhile fun c => c == '/').reverse

def isHeaderValue (s : String) : Bool :=
  s.toList.all fun c => c == '\t' || (c.toNat ≥ 0x20 && c.toNat != 0x7F)

/-- The request of a call; none if the address or the key does not allow one. -/
def request? (c : MtaCall) (access : MtaAccess) : Option MtaRequest := do
  let target ← Target.ofSuffix? (withoutSlashes access.suffix ++ c.path)
  let authorization ← match access.apiKey with
    | none => some none
    | some key => if isHeaderValue key then some (some ("Bearer " ++ key)) else none
  return ⟨c.method, target, authorization, c.body⟩

/-- A body as a text: a byte order mark at its beginning does not belong to it. -/
def bodyText (body : String) : String :=
  match body.toList with
  | '\ufeff' :: rest => String.ofList rest
  | _ => body

/-- The value of a JSON body, and of nothing else. -/
def decoded {α : Type} (f : Fields α) (body : String) : Except ClientError α :=
  match f.decoder (Json.read body) with
  | .ok a => .ok a
  | .error _ => .error (.invalidResponse "unexpected body")

/-- What a response means for a call: any status that is no success is an error. -/
def interpret (c : MtaCall) (r : MtaResponse) : c.Answer :=
  if r.code < 200 ∨ 300 ≤ r.code then .error (.status r.code (bodyText r.body))
  else
    match c with
    | .submit _ => do
        let id ← decoded (.required "id" .text) r.body
        if id = "" then throw (.invalidResponse "empty message id") else return id
    | .status _ => decoded RemoteStatus.fields r.body
    | .health | .push _ | .remove _ => .ok ()

end MtaCall

end Mailroom
