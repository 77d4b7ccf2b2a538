import Mathlib.Data.Set.Insert
import Mailroom.Proofs.Concurrency.Scope

/-!
The parts of a scene that requests work on: the row of an item with what is known of it, the row of a
job, and the messages that name an item.  Servers answer by the message alone, and whether the store
fails to record an item depends on how often that was tried.  Main statements: what a call to the
store makes of a row is told by the row but for the instants, and what is read of the items of a job
by the parts of the job.
-/

namespace Mailroom

/-- Whether the record of an item is tried. -/
def Event.tries (item : Uuid) : Event → Bool
  | ⟨_, .store (.queueItem id _), _, _, _⟩ => id == item
  | _ => false

namespace Scene

/-- How often the record of an item was tried. -/
def attempts (s : Scene) (item : Uuid) : Nat := s.history.countP (Event.tries item)

/-- How often a call was tried before, which is counted for records only. -/
def tried (s : Scene) : StoreCall → Nat
  | .queueItem id _ => s.attempts id
  | _ => 0

end Scene

/-- What a server answers is a function of the message, and whether a call to the store fails is one
of the call and of how often it was tried before. -/
structure Behaviour where
  answer : (server : String) → (message : Message) → (MtaCall.submit message).Answer
  failure? : (call : StoreCall) → (tried : Nat) → Option Failure

namespace Behaviour

/-- The answers to a request in a scene. -/
def Allows (b : Behaviour) (s : Scene) : (e : Effect) → e.Answer → Prop
  | .store call, answer =>
      match b.failure? call (s.tried call) with
      | some failure => answer = .error failure
      | none => ∃ reply, answer = .ok reply
  | .mta server (.submit message), answer => answer = b.answer server message
  | _, _ => True

/-- What the engine's requests make of a scene. -/
def acts (b : Behaviour) : Acts Scene := fun e answer u v =>
  b.Allows u e answer ∧ Surroundings.harsh.acts .engine e answer u v

end Behaviour

/-- The row of an item without the instant of its last change. -/
def Item.undated (i : Item) : Item := { i with updatedAt := ⟨0, 0⟩ }

/-- The row of a job without the instants of its last change and of its end. -/
def Job.undated (j : Job) : Job :=
  { j with updatedAt := ⟨0, 0⟩, completedAt := j.completedAt.map fun _ => ⟨0, 0⟩ }

/-- A part of a scene: an item, a job, or the messages with a header. -/
inductive Part where
  | item (id : Uuid)
  | job (id : Uuid)
  | mail (header : Option String)
deriving DecidableEq

/-- What there is to see of a part: the row of an item, whether the engine keeps it in mind, and how
often its record was tried; the row of a job; or messages with their servers, the latest first. -/
inductive Sight where
  | item (row : Option Item) (held : Option String) (attempts : Nat)
  | job (row : Option Job)
  | mail (letters : List (String × Message))
deriving Inhabited

/-- Instants aside. -/
def Sight.undated : Sight → Sight
  | item row held attempts => item (row.map Item.undated) held attempts
  | job row => job (row.map Job.undated)
  | mail letters => mail letters

def Event.letter? : Event → Option (String × Message)
  | ⟨_, .mta server (.submit message), _, _, _⟩ => some (server, message)
  | _ => none

/-- The header by which a message names its item. -/
def Message.itemHeader? (message : Message) : Option String :=
  message.headers.get? Engine.itemHeader

namespace Scene

/-- The messages that were given to servers, the latest first. -/
def letters (s : Scene) : List (String × Message) := s.history.filterMap Event.letter?

def sight (s : Scene) : Part → Sight
  | .item id => .item (s.tables.item? id) (s.accepted.lookup id) (s.attempts id)
  | .job id => .job (s.tables.job? id)
  | .mail header => .mail (s.letters.filter fun letter => letter.2.itemHeader? == header)

end Scene

/-- What the requests of a batch never change: all tables but those of jobs and items, which items
there are of which jobs, and which jobs. -/
structure Ground where
  others : Tables
  files : List (Uuid × Uuid)
  jobs : List Uuid

def Tables.ground (t : Tables) : Ground :=
  ⟨{ t with jobs := [], items := [] }, t.items.map fun i => (i.id, i.jobId), t.jobs.map Job.id⟩

/-- The parts of an item: its row and its messages. -/
def Part.ofItem (id : Uuid) : Set Part := {.item id, .mail (some id.display)}

/-- The parts of a job: its row and those of its items. -/
def Ground.partsOf (g : Ground) (job : Uuid) : Set Part :=
  {part | part = .job job ∨ ∃ id, (id, job) ∈ g.files ∧ part ∈ Part.ofItem id}

/-- A scene on a ground. -/
structure Scene.Fits (g : Ground) (s : Scene) : Prop where
  wellFormed : s.tables.IsWellFormed
  ground : s.tables.ground = g

/-- From one scene to another only some parts are changed. -/
def ChangesOnly (g : Ground) (parts : Set Part) (u v : Scene) : Prop :=
  (u.Fits g → v.Fits g) ∧ ∀ part ∉ parts, v.sight part = u.sight part

/-- Two scenes look alike in some parts, instants aside. -/
def Alike (parts : Set Part) (u v : Scene) : Prop :=
  ∀ part ∈ parts, (u.sight part).undated = (v.sight part).undated

variable {g : Ground} {parts more : Set Part} {u u' v : Scene}

theorem ChangesOnly.mono (h : ChangesOnly g parts u v) (hsub : parts ⊆ more) :
    ChangesOnly g more u v :=
  ⟨h.1, fun part hpart => h.2 part fun hin => hpart (hsub hin)⟩

theorem Alike.mono (h : Alike more u v) (hsub : parts ⊆ more) : Alike parts u v :=
  fun part hpart => h part (hsub hpart)

namespace StoreCall

/-- The calls by which a batch is dispatched. -/
def IsDispatch : StoreCall → Prop
  | .pendingItems _ _ | .queueItem _ _ | .failItem _ _ _ | .refreshStats _ | .recipient _
  | .template _ | .templateByName _ | .campaign _ | .variants _ | .globals => True
  | .moveJob _ _ target => target.IsOutcome
  | _ => False

variable {call : StoreCall} {t t' : Tables} {now now' : Timestamp}

theorem IsDispatch.newItems_eq (h : call.IsDispatch) : call.newItems t now = [] := by
  cases call <;> first | rfl | exact absurd h id

theorem IsDispatch.newJobs_eq (h : call.IsDispatch) : call.newJobs t now = [] := by
  cases call <;> first | rfl | exact absurd h id

theorem IsDispatch.others_serve (h : call.IsDispatch) :
    ({ (t.serve now call).2 with jobs := [], items := [] } : Tables) =
      { t with jobs := [], items := [] } := by
  cases call with
  | moveJob id sources target =>
      simp only [Tables.serve, Tables.moveJob]
      split <;> rfl
  | queueItem id remoteId =>
      simp only [Tables.serve, Tables.queueItem, Tables.moveItem]
      split <;> rfl
  | failItem id source error =>
      simp only [Tables.serve, Tables.failItem, Tables.moveItem]
      split <;> rfl
  | _ => first | rfl | exact absurd h id

theorem IsDispatch.ground_serve (h : call.IsDispatch) (ht : t.IsWellFormed) :
    (t.serve now call).2.ground = t.ground := by
  simp only [Tables.ground, h.others_serve, Tables.items_serve ht, Tables.jobs_serve ht,
    h.newItems_eq, h.newJobs_eq, List.append_nil, List.map_map, Ground.mk.injEq, true_and]
  constructor
  · exact List.map_congr_left fun i _ => by simp
  · exact List.map_congr_left fun j _ => by simp

theorem IsDispatch.item?_serve (h : call.IsDispatch) (ht : t.IsWellFormed) (id : Uuid) :
    (t.serve now call).2.item? id = (t.item? id).map (call.onItem now) := by
  have htest : (fun i : Item => i.id == id) ∘ call.onItem now = fun i => i.id == id := by
    funext i
    simp
  rw [Tables.item?, Tables.items_serve ht, h.newItems_eq, List.append_nil, List.find?_map, htest,
    Tables.item?]

theorem IsDispatch.job?_serve (h : call.IsDispatch) (ht : t.IsWellFormed) (id : Uuid) :
    (t.serve now call).2.job? id = (t.job? id).map (call.onJob t now) := by
  have htest : (fun j : Job => j.id == id) ∘ call.onJob t now = fun j => j.id == id := by
    funext j
    simp
  rw [Tables.job?, Tables.jobs_serve ht, h.newJobs_eq, List.append_nil, List.find?_map, htest,
    Tables.job?]

/-- The parts that a call reads or writes. -/
def footprint (g : Ground) : StoreCall → Set Part
  | .queueItem id _ | .failItem id _ _ => {.item id}
  | .moveJob id _ _ => {.job id}
  | .refreshStats id | .pendingItems id _ => g.partsOf id
  | _ => ∅

theorem IsDispatch.onItem_eq_self {i : Item} (h : call.IsDispatch)
    (hi : Part.item i.id ∉ call.footprint g) : call.onItem now i = i := by
  cases call with
  | queueItem id remoteId =>
      have hne : ¬ i.id = id := fun hid => hi (by simp [footprint, hid])
      simp [onItem, Tables.isItemIn, hne]
  | failItem id source error =>
      have hne : ¬ i.id = id := fun hid => hi (by simp [footprint, hid])
      simp [onItem, Tables.isItemIn, hne]
  | checkItems | confirmItem | resetFailed => exact absurd h id
  | _ => rfl

theorem IsDispatch.onJob_eq_self {j : Job} (h : call.IsDispatch)
    (hj : Part.job j.id ∉ call.footprint g) : call.onJob t now j = j := by
  cases call with
  | moveJob id sources target =>
      have hne : ¬ j.id = id := fun hid => hj (by simp [footprint, hid])
      simp [onJob, hne]
  | refreshStats id =>
      have hne : ¬ j.id = id := fun hid => hj (.inl (by rw [hid]))
      simp [onJob, hne]
  | _ => rfl

/-- What a call makes of the row of an item does not depend on instants. -/
theorem IsDispatch.undated_onItem {i i' : Item} (h : call.IsDispatch)
    (hi : i.undated = i'.undated) :
    (call.onItem now i).undated = (call.onItem now' i').undated := by
  have hin : ∀ id status, Tables.isItemIn id status i = Tables.isItemIn id status i' := by
    intro id status
    have hid : i.undated.id = i'.undated.id := congrArg Item.id hi
    have hstatus : i.undated.status = i'.undated.status := congrArg Item.status hi
    exact congrArg₂ (fun k s => k == id && s == .known status) hid hstatus
  cases call with
  | queueItem id remoteId =>
      simp only [onItem, hin]
      split
      · exact congrArg (fun k : Item =>
          { k with status := .known .queued, remoteId := some remoteId, lastError := none }) hi
      · exact hi
  | failItem id source error =>
      simp only [onItem, hin]
      split
      · exact congrArg (fun k : Item =>
          { k with status := .known .failed, lastError := some error }) hi
      · exact hi
  | checkItems | confirmItem | resetFailed => exact absurd h id
  | _ => exact hi

/-- What a call makes of the row of a job does not depend on instants, if the job's items count
alike. -/
theorem IsDispatch.undated_onJob {j j' : Job} (h : call.IsDispatch) (hj : j.undated = j'.undated)
    (hstats : ∀ id, call = .refreshStats id → t.statsOf id = t'.statsOf id) :
    (call.onJob t now j).undated = (call.onJob t' now' j').undated := by
  have hid : j.undated.id = j'.undated.id := congrArg Job.id hj
  change j.id = j'.id at hid
  cases call with
  | moveJob id sources target =>
      have hstatus : j.undated.status = j'.undated.status := congrArg Job.status hj
      change j.status = j'.status at hstatus
      have hsame : (j.id == id && Tables.canLeave sources j) =
          (j'.id == id && Tables.canLeave sources j') := by
        rw [hid, Tables.canLeave, hstatus, Tables.canLeave]
      have hmoved : ∀ (now : Timestamp) (k : Job), (Tables.movedTo target now k).undated =
          { k.undated with status := .known target, completedAt := some ⟨0, 0⟩ } := by
        intro now k
        rcases h with rfl | rfl <;> rfl
      simp only [onJob, hsame]
      split
      · rw [hmoved, hmoved, hj]
      · exact hj
  | refreshStats id =>
      have hsame : (j.id == id) = (j'.id == id) := by rw [hid]
      simp only [onJob, hsame, hstats id rfl]
      split
      · exact congrArg (fun k : Job => { k with stats := t'.statsOf id }) hj
      · exact hj
  | _ => exact hj

end StoreCall

namespace Tables

variable {t t' : Tables} {job : Uuid}

theorem filterMap_item? (ht : t.IsWellFormed) {items : List Item}
    (hitems : ∀ i ∈ items, i ∈ t.items) :
    items.filterMap (fun i => t.item? i.id) = items := by
  conv_rhs => rw [← List.filterMap_some (l := items)]
  exact List.filterMap_congr fun i hi => (item?_eq_some_iff ht).2 ⟨hitems i hi, rfl⟩

/-- The items of a job can be found by the files. -/
theorem itemsOf_eq (ht : t.IsWellFormed) (job : Uuid) :
    t.itemsOf job =
      (t.ground.files.filter fun file => file.2 == job).filterMap fun file => t.item? file.1 := by
  rw [ground, List.filter_map, List.filterMap_map]
  exact (filterMap_item? ht fun i hi => List.mem_of_mem_filter hi).symm

theorem pendingItems_eq (t : Tables) (job : Uuid) (limit : Int) : t.pendingItems job limit =
    ((t.itemsOf job).filter fun i => i.status == .known .pending).take limit.toNat := by
  simp only [pendingItems, itemsOf, List.filter_filter, Bool.and_comm]

end Tables

theorem Ground.item_mem_partsOf {file : Uuid × Uuid} {job : Uuid}
    (hfile : file ∈ g.files.filter fun file => file.2 == job) :
    Part.item file.1 ∈ g.partsOf job := by
  obtain ⟨hmem, hjob⟩ := List.mem_filter.1 hfile
  obtain rfl : file.2 = job := by simpa using hjob
  exact .inr ⟨file.1, hmem, .inl rfl⟩

/-- The items of a job are seen alike where their rows are. -/
theorem Scene.Fits.map_itemsOf_congr {β : Type} {look : Item → β} {job : Uuid} (hu : u.Fits g)
    (hu' : u'.Fits g) (h : ∀ id, Part.item id ∈ g.partsOf job →
      (u.tables.item? id).map look = (u'.tables.item? id).map look) :
    (u.tables.itemsOf job).map look = (u'.tables.itemsOf job).map look := by
  rw [Tables.itemsOf_eq hu.wellFormed, Tables.itemsOf_eq hu'.wellFormed, hu.ground, hu'.ground,
    List.map_filterMap, List.map_filterMap]
  exact List.filterMap_congr fun file hfile => h _ (Ground.item_mem_partsOf hfile)

theorem Alike.statsOf {job : Uuid} (hu : u.Fits g) (hu' : u'.Fits g)
    (h : Alike (g.partsOf job) u u') : u.tables.statsOf job = u'.tables.statsOf job := by
  have hitems : (u.tables.itemsOf job).map Item.undated =
      (u'.tables.itemsOf job).map Item.undated :=
    hu.map_itemsOf_congr hu' fun id hid => (Sight.item.inj (h _ hid)).1
  have hstatuses := congrArg (List.map Item.status) hitems
  rw [List.map_map, List.map_map] at hstatuses
  exact congrArg JobStats.ofStatuses hstatuses

/-- The pending items of a job are the same where its parts are, instants included. -/
theorem pendingItems_of_sight {job : Uuid} (hu : u.Fits g) (hu' : u'.Fits g)
    (h : ∀ part ∈ g.partsOf job, u.sight part = u'.sight part) (limit : Int) :
    u.tables.pendingItems job limit = u'.tables.pendingItems job limit := by
  have hitems : (u.tables.itemsOf job).map id = (u'.tables.itemsOf job).map id :=
    hu.map_itemsOf_congr hu' fun id hid =>
      congrArg (Option.map _) (Sight.item.inj (h _ hid)).1
  rw [List.map_id, List.map_id] at hitems
  rw [Tables.pendingItems_eq, Tables.pendingItems_eq, hitems]

end Mailroom
