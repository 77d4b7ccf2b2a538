import Mailroom.Mta.Registry
import Mailroom.Program
import Mailroom.Store.Format

/-!
Making a job out of a campaign: one item for each recipient on the campaign's list, with servers
assigned by the strategy and variants by their weights.
-/

namespace Mailroom

open Json (Fields)

structure JobRequest where
  campaignId : Uuid
  servers : List String
  strategy : Option StrategyKind
  scheduledAt : Option Timestamp
  dryRunLimit : Option Int
deriving DecidableEq, Repr

namespace JobRequest

def fields : Fields JobRequest :=
  JobRequest.mk <$> .required "campaign_id" .uuid <*> .defaulted "servers" (.list .text) []
    <*> .trailing "strategy" .word <*> .trailing "scheduled_at" .time
    <*> .trailing "dry_run_limit" .int32

/-- The servers asked for, each once; all of them have to be known. -/
def distinctServers (registry : Registry) : List String → List String →
    Except JobError (List String)
  | [], chosen => .ok chosen
  | name :: rest, chosen =>
      if ¬ registry.contains name then
        .error (.invalidRequest ("server " ++ name ++ " is not configured"))
      else if chosen.contains name then distinctServers registry rest chosen
      else distinctServers registry rest (chosen ++ [name])

/-- The servers of a request; there has to be one. -/
def checkedServers (registry : Registry) (servers : List String) : Except JobError (List String) :=
  if servers.isEmpty then .error (.invalidRequest "at least one server is required")
  else distinctServers registry servers []

/-- A limit has to let something through. -/
def checkLimit : Option Int → Except JobError Unit
  | some limit =>
      if limit < 1 then .error (.invalidRequest "dry_run_limit must be at least 1") else .ok ()
  | none => .ok ()

/-- How recipients are turned into items. -/
structure Expansion where
  strategy : Strategy
  key : String
  servers : List String
  variants : List Variant
  limit : Option Nat

namespace Expansion

/-- Whether no more items may be made after so many. -/
def isFull (x : Expansion) (count : Nat) : Bool :=
  match x.limit with
  | some limit => limit ≤ count
  | none => false

/-- Items for some recipients, after others; stops when the limit is reached. -/
def extend (x : Expansion) : List Recipient → (items : List NewItem) → Selection →
    List NewItem × Selection
  | [], items, s => (items, s)
  | r :: rest, items, s =>
      if x.isFull items.length then (items, s)
      else
        let (place, s) := s.select x.strategy x.key x.servers
        let server := x.servers.getD (place.getD 0) ""
        x.extend rest (items ++ [⟨r.id, Variant.pick x.variants items.length, server⟩]) s

end Expansion

def pageSize : Nat := 500

def pageLimit : Nat := Nat.pow 2 63

/-- Fetch the recipients of a list page by page from `offset` on, and make items of them; `pages`
counts the pages that may still be fetched. -/
def expand (x : Expansion) (list : Uuid) : (pages offset : Nat) → List NewItem → Selection →
    Service JobError (List NewItem)
  | 0, _, items, _ => return items
  | pages + 1, offset, items, s => do
      let page ← Service.store (.recipients list (Int.ofNat pageSize) (Int.ofNat offset))
      if page.items.isEmpty then return items
      let (longer, s) := x.extend page.items items s
      let offset := offset + page.items.length
      if x.isFull longer.length ∧ longer.length < items.length + page.items.length then
        return longer
      if page.total ≤ Int.ofNat offset then return longer
      expand x list pages offset longer s

def firstStatus (scheduledAt : Option Timestamp) (now : Timestamp) : JobStatus :=
  match scheduledAt with
  | some time => if now.lt time then .scheduled else .running
  | none => .running

def create (r : JobRequest) (registry : Registry) (standard : StrategyKind) :
    Service JobError Job := do
  let servers ← liftExcept (checkedServers registry r.servers)
  liftExcept (checkLimit r.dryRunLimit)
  let campaign ← Service.found (.campaignNotFound r.campaignId)
    (← Service.store (.campaign r.campaignId))
  let variants ← Service.store (.variants campaign.id)
  let kind := r.strategy.getD standard
  let x : Expansion :=
    ⟨.forServers kind servers registry.weight, campaign.id.display, servers, variants,
      r.dryRunLimit.map Int.toNat⟩
  let items ← expand x campaign.listId pageLimit 0 [] .initial
  let status := firstStatus r.scheduledAt (← Service.request .now)
  Service.store
    (.createJob ⟨campaign.id, status, servers, kind, r.dryRunLimit, r.scheduledAt⟩ items)

end JobRequest

end Mailroom
