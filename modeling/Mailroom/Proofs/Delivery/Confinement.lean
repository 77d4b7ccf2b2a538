import Mailroom.Proofs.Delivery.Custody
import Mailroom.Proofs.Jobs.Coherence

/-!
What a program is confined to.  From one scene to a later one, all but some items are left as they
are and all but some jobs keep their statuses.  Main statements: a request within a scope confines
what it does to the items and jobs of the scope, and a program all of whose requests do so leaves
everything else as it was.
-/

namespace Mailroom

open Program (Asks Meets)

/-- Whether the message of an item is offered to a server, or it is recorded what became of it. -/
def Event.dispatches (item : Uuid) : Event → Bool
  | ⟨_, .mta _ (.submit message), _, _, _⟩ =>
      message.headers.get? Engine.itemHeader == some item.display
  | ⟨_, .store (.queueItem id _), _, _, _⟩ => id == item
  | ⟨_, .store (.failItem id .pending _), _, _, _⟩ => id == item
  | _ => false

def Tables.itemStatus (t : Tables) (item : Uuid) : Option (Stored ItemStatus) :=
  (t.item? item).map Item.status

/-- From one scene to another only some items were worked on, and only some jobs were moved. -/
structure Confined (worked moved : Uuid → Prop) (u v : Scene) : Prop where
  items : ∃ f : Item → Item, v.tables.items = u.tables.items.map f ∧
    ∀ i, (f i).id = i.id ∧ (f i).jobId = i.jobId ∧ (¬ worked i.id → f i = i)
  jobs : ∃ g : Job → Job, v.tables.jobs = u.tables.jobs.map g ∧
    ∀ j, (g j).id = j.id ∧ (¬ moved j.id → (g j).status = j.status)
  held : ∀ id, ¬ worked id → v.accepted.lookup id = u.accepted.lookup id
  events : ∃ events, v.history = events ++ u.history ∧
    ∀ event ∈ events, ∀ id, event.dispatches id = true → worked id

/-- Some items may be worked on and some jobs moved, and any may be counted. -/
def Scope.confined (worked moved : Uuid → Prop) : Scope where
  items id _ := worked id
  mail := worked
  stamps := worked
  renews _ := False
  moves id _ _ := moved id
  counts _ := True
  creates _ := False

namespace Confined

variable {worked worked' moved moved' : Uuid → Prop} {u v w : Scene} {item job : Uuid}

theorem refl (worked moved : Uuid → Prop) (u : Scene) : Confined worked moved u u :=
  ⟨⟨id, by simp⟩, ⟨id, by simp⟩, fun _ _ => rfl, ⟨[], by simp⟩⟩

theorem trans (huv : Confined worked moved u v) (hvw : Confined worked moved v w) :
    Confined worked moved u w := by
  obtain ⟨f, hf, hitem⟩ := huv.items
  obtain ⟨f', hf', hitem'⟩ := hvw.items
  obtain ⟨g, hg, hjob⟩ := huv.jobs
  obtain ⟨g', hg', hjob'⟩ := hvw.jobs
  obtain ⟨events, hevents, hapart⟩ := huv.events
  obtain ⟨events', hevents', hapart'⟩ := hvw.events
  refine ⟨⟨f' ∘ f, by rw [hf', hf, List.map_map], fun i => ?_⟩,
    ⟨g' ∘ g, by rw [hg', hg, List.map_map], fun j => ?_⟩,
    fun id hid => (hvw.held id hid).trans (huv.held id hid), events' ++ events,
    by rw [hevents', hevents, List.append_assoc], fun event hevent => ?_⟩
  · obtain ⟨hid, hfile, hsame⟩ := hitem i
    obtain ⟨hid', hfile', hsame'⟩ := hitem' (f i)
    refine ⟨hid'.trans hid, hfile'.trans hfile, fun hout => ?_⟩
    rw [Function.comp_apply, hsame' (by rwa [hid]), hsame hout]
  · obtain ⟨hid, hsame⟩ := hjob j
    obtain ⟨hid', hsame'⟩ := hjob' (g j)
    exact ⟨hid'.trans hid, fun hout => (hsame' (by rwa [hid])).trans (hsame hout)⟩
  · rcases List.mem_append.1 hevent with hevent | hevent
    · exact hapart' event hevent
    · exact hapart event hevent

theorem mono (h : Confined worked moved u v) (hworked : ∀ id, worked id → worked' id)
    (hmoved : ∀ id, moved id → moved' id) : Confined worked' moved' u v := by
  obtain ⟨f, hf, hitem⟩ := h.items
  obtain ⟨g, hg, hjob⟩ := h.jobs
  obtain ⟨events, hevents, hapart⟩ := h.events
  refine ⟨⟨f, hf, fun i => ⟨(hitem i).1, (hitem i).2.1, fun hout => ?_⟩⟩,
    ⟨g, hg, fun j => ⟨(hjob j).1, fun hout => ?_⟩⟩,
    fun id hout => h.held id fun hin => hout (hworked id hin), events, hevents,
    fun event hevent id hid => hworked id (hapart event hevent id hid)⟩
  · exact (hitem i).2.2 fun hin => hout (hworked _ hin)
  · exact (hjob j).2 fun hin => hout (hmoved _ hin)

/-- Steps that are confined add up. -/
theorem stable (w : Scene) : Stable (Confined worked moved) (Confined worked moved w) :=
  fun _ _ hu hstep => hu.trans hstep

theorem item?_map (h : Confined worked moved u v) :
    ∃ f : Item → Item, (∀ i, ¬ worked i.id → f i = i) ∧
      ∀ id, v.tables.item? id = (u.tables.item? id).map f := by
  obtain ⟨f, hf, hitem⟩ := h.items
  refine ⟨f, fun i => (hitem i).2.2, fun id => ?_⟩
  have htest : (fun i : Item => i.id == id) ∘ f = fun i => i.id == id := by
    funext i
    simp [(hitem i).1]
  rw [Tables.item?, hf, List.find?_map, htest, Tables.item?]

theorem item? (h : Confined worked moved u v) (hout : ¬ worked item) :
    v.tables.item? item = u.tables.item? item := by
  obtain ⟨f, hsame, hmap⟩ := h.item?_map
  rw [hmap]
  cases hi : u.tables.item? item with
  | none => rfl
  | some i =>
      have hid : i.id = item := by simpa using List.find?_some hi
      rw [Option.map_some, hsame i (by rwa [hid])]

theorem itemStatus (h : Confined worked moved u v) (hout : ¬ worked item) :
    v.tables.itemStatus item = u.tables.itemStatus item := by
  rw [Tables.itemStatus, h.item? hout, Tables.itemStatus]

theorem statusOf (h : Confined worked moved u v) (hout : ¬ moved job) :
    v.tables.statusOf job = u.tables.statusOf job := by
  obtain ⟨g, hg, hjob⟩ := h.jobs
  have htest : (fun j : Job => j.id == job) ∘ g = fun j => j.id == job := by
    funext j
    simp [(hjob j).1]
  rw [Tables.statusOf, Tables.job?, hg, List.find?_map, htest, Tables.statusOf, Tables.job?]
  cases hj : u.tables.jobs.find? fun j => j.id == job with
  | none => rfl
  | some j =>
      have hid : j.id = job := by simpa using List.find?_some hj
      exact congrArg some ((hjob j).2 (by rwa [hid]))

/-- All items are as they were if none was worked on. -/
theorem items_eq (h : Confined (fun _ => False) moved u v) : v.tables.items = u.tables.items := by
  obtain ⟨f, hf, hitem⟩ := h.items
  rw [hf]
  conv_rhs => rw [← List.map_id u.tables.items]
  exact List.map_congr_left fun i _ => (hitem i).2.2 id

/-- The items of a job none of which was worked on. -/
theorem itemsOf (h : Confined worked moved u v)
    (hout : ∀ i ∈ u.tables.items, i.jobId = job → ¬ worked i.id) :
    v.tables.itemsOf job = u.tables.itemsOf job := by
  obtain ⟨f, hf, hitem⟩ := h.items
  have htest : (fun i : Item => i.jobId == job) ∘ f = fun i => i.jobId == job := by
    funext i
    simp [(hitem i).2.1]
  rw [Tables.itemsOf, hf, List.filter_map, htest, Tables.itemsOf]
  conv_rhs => rw [← List.map_id (u.tables.items.filter fun i => i.jobId == job)]
  apply List.map_congr_left
  intro i hi
  obtain ⟨hi, hown⟩ := List.mem_filter.1 hi
  exact (hitem i).2.2 (hout i hi (by simpa using hown))

theorem pendingItems (h : Confined worked moved u v) {limit : Int}
    (hout : ∀ i ∈ u.tables.items, i.jobId = job → ¬ worked i.id) :
    v.tables.pendingItems job limit = u.tables.pendingItems job limit := by
  have hfilter : ∀ t : Tables, t.pendingItems job limit =
      ((t.itemsOf job).filter fun i => i.status == .known .pending).take limit.toNat := by
    intro t
    simp only [Tables.pendingItems, Tables.itemsOf, List.filter_filter, Bool.and_comm]
  rw [hfilter, hfilter, h.itemsOf hout]

theorem map_job_id (h : Confined worked moved u v) :
    v.tables.jobs.map Job.id = u.tables.jobs.map Job.id := by
  obtain ⟨g, hg, hjob⟩ := h.jobs
  rw [hg, List.map_map]
  exact List.map_congr_left fun j _ => (hjob j).1

end Confined

section

variable {around : Surroundings} {actor : Actor} {effect : Effect} {answer : effect.Answer}
  {worked moved : Uuid → Prop} {rely : Scene → Scene → Prop} {u v w : Scene} {item : Uuid}
  {α : Type}

theorem Effect.Within.spares (hwithin : effect.Within (.confined worked moved))
    (hout : ¬ worked item) : effect.Spares item := by
  have hne : ∀ id, worked id → id ≠ item := fun id hid heq => hout (heq ▸ hid)
  cases effect with
  | store call =>
      cases call with
      | checkItems ids => exact fun id hid => hne id (hwithin id hid)
      | queueItem | failItem | confirmItem => exact hne _ hwithin
      | resetFailed => exact absurd hwithin id
      | _ => trivial
  | mta server call =>
      cases call with
      | submit message => exact fun id hid => hne id (hwithin id hid)
      | _ => trivial
  | keepAccepted | dropAccepted => exact hne _ hwithin
  | storeLater => exact absurd hwithin id
  | _ => trivial

/-- To dispatch an item takes a scope that lets its message be sent or the item be moved out of
being pending. -/
theorem not_dispatches_of_within {scope : Scope} (hwithin : effect.Within scope)
    (hmail : ¬ scope.mail item) (hitems : ¬ scope.items item .pending) (before after : Tables) :
    Event.dispatches item ⟨actor, effect, answer, before, after⟩ = false := by
  cases effect with
  | store call =>
      cases call with
      | queueItem id remoteId =>
          rw [Event.dispatches, beq_eq_false_iff_ne]
          rintro rfl
          exact hitems hwithin
      | failItem id source error =>
          cases source with
          | pending =>
              rw [Event.dispatches, beq_eq_false_iff_ne]
              rintro rfl
              exact hitems hwithin
          | _ => rfl
      | _ => rfl
  | mta server call =>
      cases call with
      | submit message =>
          simp only [Event.dispatches, beq_eq_false_iff_ne]
          exact fun hheader => hmail (hwithin item hheader)
      | _ => rfl
  | _ => rfl

/-- A request within a scope is confined to it. -/
theorem Confined.of_acts (hu : u.tables.IsWellFormed)
    (hacts : around.acts actor effect answer u v)
    (hwithin : effect.Within (.confined worked moved)) : Confined worked moved u v := by
  refine ⟨?_, ?_, fun id hout => acts_lookup_of_spares hacts (hwithin.spares hout),
    [⟨actor, effect, answer, u.tables, v.tables⟩], Surroundings.acts_history hacts, ?_⟩
  · rcases Surroundings.acts_tables hacts with htables | ⟨call, now, rfl | rfl, htables⟩
    · exact ⟨id, by simp [htables]⟩
    · refine ⟨call.onItem now, ?_, fun i => ⟨by simp, by simp, fun hout => ?_⟩⟩
      · have hnew : call.newItems u.tables now = [] := by
          cases call with
          | createJob n items => exact absurd hwithin id
          | _ => rfl
        rw [htables, Tables.items_serve hu, hnew, List.append_nil]
      · exact StoreCall.onItem_of_spares (hwithin.spares hout)
    · exact absurd hwithin id
  · rcases Surroundings.acts_tables hacts with htables | ⟨call, now, rfl | rfl, htables⟩
    · exact ⟨id, by simp [htables]⟩
    · refine ⟨call.onJob u.tables now, ?_, fun j => ⟨by simp, fun hout => ?_⟩⟩
      · have hnew : call.newJobs u.tables now = [] := by
          cases call with
          | createJob n items => exact absurd hwithin id
          | _ => rfl
        rw [htables, Tables.jobs_serve hu, hnew, List.append_nil]
      · exact StoreCall.status_onJob hwithin fun _ _ => hout
    · exact absurd hwithin id
  · intro event hevent id hdispatches
    rw [List.mem_singleton] at hevent
    subst hevent
    by_contra hout
    rw [not_dispatches_of_within hwithin hout hout] at hdispatches
    cases hdispatches

/-- A program all of whose requests are within a scope is confined to it. -/
theorem Program.Meets.confined {p : Program α} {post : α → Scene → Prop}
    (hasks : p.Asks (Effect.Within (.confined worked moved)))
    (hp : p.Meets (tellingTurns around) rely (fun _ _ => True) post w) :
    p.Meets (tellingTurns around) rely (Confined worked moved) post w := by
  refine (Meets.asking hasks hp).mono (fun _ _ h => h) ?_ fun _ _ h => h
  rintro u v ⟨-, e, answer, hkind, hacts⟩
  exact .of_acts hacts.1 hacts.2.2 hkind

/-- From a scene whose rows are told apart a program comes to another one of the kind. -/
theorem Program.Completes.telling {p : Program α} {a : α} (hw : w.tables.IsWellFormed)
    (h : p.Completes (around.acts .engine) w a v) :
    p.Completes (tellingTurns around) w a v ∧ v.tables.IsWellFormed := by
  induction h with
  | ends hends => exact ⟨.ends hends, hw⟩
  | turn hturn hacts _ ih =>
      have hu := Surroundings.acts_isWellFormed hw hacts
      obtain ⟨hrest, hv⟩ := ih hu
      exact ⟨.turn hturn ⟨hw, hu, hacts⟩ hrest, hv⟩

end

end Mailroom
