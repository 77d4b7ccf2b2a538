import Mailroom.Proofs.Concurrency.Tallying
import Mailroom.Proofs.Jobs.Coherence
import Mailroom.Proofs.Jobs.Rounds
import Mailroom.Proofs.Store.Queue

/-!
A pass of checks while operators go on.  Main statement: if the store can list and stamp items, a
pass stamps the items that it draws and no others, asks the server of each of them once if it is
registered, and leaves all other items in the queue as they are.
-/

namespace Mailroom

open Program (Asks Completes Tallies)
open Relation (ReflTransGen)
open Service (asks_bind asks_lift asks_pure asks_store run_lift_bind)

variable {e : Engine} {around : Surroundings} {actor : Actor} {effect : Effect}
  {answer : effect.Answer} {scope : Scope} {ids : List Uuid} {time : Timestamp} {t : Tables}
  {u v w : Scene} {i : Item} {α : Type}

/-- A request that moves no queued item and stamps none leaves the queue as it is, if no further
item gets into it. -/
theorem awaiting_of_acts (hu : u.tables.IsWellFormed) (hacts : around.acts actor effect answer u v)
    (hwithin : effect.Within scope) (hitems : ∀ id, ¬ scope.items id .queued)
    (hstamps : ∀ id, ¬ scope.stamps id)
    (hfurther : ∀ i ∈ v.tables.awaiting, ∃ k ∈ u.tables.awaiting, k.id = i.id) :
    v.tables.awaiting = u.tables.awaiting := by
  rcases Surroundings.acts_tables hacts with htables | ⟨call, now, rfl | rfl, htables⟩
  · rw [htables]
  · have hfixed : ∀ i ∈ u.tables.items, Tables.isAwaiting i = true → call.onItem now i = i := by
      intro i _ hawaiting
      exact StoreCall.onItem_of_queued hwithin (hitems _) (hstamps _)
        (Tables.queued_of_awaiting hawaiting)
    have hnew : (call.newItems u.tables now).filter Tables.isAwaiting = [] := by
      rw [List.filter_eq_nil_iff]
      intro i hi
      simp [Tables.isAwaiting, (Tables.id_of_mem_callItems hi).2.1]
    have hrows : v.tables.items =
        u.tables.items.map (fun i => call.onItem now i) ++ call.newItems u.tables now := by
      rw [htables, Tables.items_serve hu]
    rw [Tables.awaiting, hrows, List.filter_append, hnew, List.append_nil]
    refine filter_map_of_fixed (fun i hi => ?_) hfixed
    rw [Bool.eq_iff_iff]
    constructor
    · intro hafter
      have hmem : call.onItem now i ∈ v.tables.awaiting := by
        refine Tables.mem_awaiting.2 ⟨?_, hafter⟩
        rw [hrows]
        exact List.mem_append_left _ (List.mem_map_of_mem hi)
      obtain ⟨k, hk, hid⟩ := hfurther _ hmem
      obtain ⟨hk, hbefore⟩ := Tables.mem_awaiting.1 hk
      obtain rfl := List.inj_on_of_nodup_map hu.items_nodup hk hi (by simpa using hid)
      exact hbefore
    · intro hbefore
      rwa [hfixed i hi hbefore]
  · exact absurd hwithin id

/-- Operators leave the queue as it is. -/
theorem Others.awaiting (hu : u.tables.IsWellFormed) (h : Others around .engine u v) :
    v.tables.IsWellFormed ∧ v.tables.awaiting = u.tables.awaiting := by
  obtain ⟨actor, effect, answer, hactor, hwithin, hacts⟩ := h
  refine ⟨Surroundings.acts_isWellFormed hu hacts, ?_⟩
  cases actor with
  | engine => exact absurd rfl hactor
  | operator place call =>
      refine awaiting_of_acts hu hacts hwithin (fun _ => id) (fun _ => id) fun i hi => ?_
      obtain ⟨hi, hawaiting⟩ := Tables.mem_awaiting.1 hi
      have hbefore :=
        queued_before hu hacts hwithin id id hi (Tables.queued_of_awaiting hawaiting)
      exact ⟨i, Tables.mem_awaiting.2 ⟨hbefore, hawaiting⟩, rfl⟩

theorem Others.awaiting_many (hu : u.tables.IsWellFormed)
    (h : ReflTransGen (Others around .engine) u v) :
    v.tables.IsWellFormed ∧ v.tables.awaiting = u.tables.awaiting := by
  induction h with
  | refl => exact ⟨hu, rfl⟩
  | tail _ hstep ih =>
      obtain ⟨hv, hsame⟩ := hstep.awaiting ih.1
      exact ⟨hv, hsame.trans ih.2⟩

/-- From one scene to another only some items may have left the queue, and all others in it are as
they were. -/
structure Dequeues (ids : List Uuid) (u v : Scene) : Prop where
  kept : ∀ i ∈ u.tables.awaiting, i.id ∉ ids → i ∈ v.tables.awaiting
  old : v.tables.awaiting ⊆ u.tables.awaiting

namespace Dequeues

theorem of_eq (ids : List Uuid) (h : v.tables.awaiting = u.tables.awaiting) : Dequeues ids u v :=
  ⟨fun _ hi _ => h ▸ hi, fun _ hi => h ▸ hi⟩

theorem trans (huv : Dequeues ids u v) (hvw : Dequeues ids v w) : Dequeues ids u w :=
  ⟨fun i hi hid => hvw.kept i (huv.kept i hi hid) hid, fun _ hi => huv.old (hvw.old hi)⟩

theorem of_acts (hu : u.tables.IsWellFormed) (hacts : around.acts actor effect answer u v)
    (hwithin : effect.Within (.settling ids)) : Dequeues ids u v := by
  constructor
  · intro i hi hid
    obtain ⟨hi, hawaiting⟩ := Tables.mem_awaiting.1 hi
    have hafter := queued_after hu hacts hwithin (fun h => hid h.2) id hi
      (Tables.queued_of_awaiting hawaiting)
    exact Tables.mem_awaiting.2 ⟨hafter, hawaiting⟩
  · intro i hi
    obtain ⟨hi, hawaiting⟩ := Tables.mem_awaiting.1 hi
    have hpending : ¬ (Scope.settling ids).items i.id .pending := by
      rintro ⟨⟨⟩, -⟩
    have hbefore := queued_before hu hacts hwithin hpending id hi
      (Tables.queued_of_awaiting hawaiting)
    exact Tables.mem_awaiting.2 ⟨hbefore, hawaiting⟩

/-- A program that settles some items while operators go on leaves all others in the queue. -/
theorem of_completes {acts : Acts Scene} {p : Program α} {a : α}
    (hasks : p.Asks (Effect.Within (.settling ids)))
    (hacts : ∀ e answer u v, acts e answer u v → around.acts .engine e answer u v)
    (hw : w.tables.IsWellFormed)
    (h : p.Completes (amid (Others around .engine) acts) w a v) :
    v.tables.IsWellFormed ∧ Dequeues ids w v := by
  induction h with
  | ends hends => exact ⟨hw, .of_eq ids rfl⟩
  | turn hturn hstep _ ih =>
      obtain ⟨hwithin, hleft⟩ := hasks.turn hturn
      obtain ⟨x, y, hbefore, hown, hafter⟩ := hstep
      obtain ⟨hx, hfirst⟩ := Others.awaiting_many hw hbefore
      have hown := hacts _ _ x y hown
      obtain ⟨hv, hlast⟩ :=
        Others.awaiting_many (Surroundings.acts_isWellFormed hx hown) hafter
      obtain ⟨hend, hrest⟩ := ih hleft hv
      exact ⟨hend, (((of_eq ids hfirst).trans (of_acts hx hown hwithin)).trans
        (of_eq ids hlast)).trans hrest⟩

end Dequeues

/-- Rows that wait after some were stamped. -/
theorem Tables.mem_awaiting_checkItems :
    i ∈ (t.checkItems ids time).awaiting ↔
      ∃ k ∈ t.awaiting, (StoreCall.checkItems ids).onItem time k = i := by
  have hsame : ∀ k, isAwaiting ((StoreCall.checkItems ids).onItem time k) = isAwaiting k := by
    intro k
    simp only [StoreCall.onItem]
    split <;> rfl
  have hrows :
      (t.checkItems ids time).items = t.items.map ((StoreCall.checkItems ids).onItem time) := rfl
  rw [mem_awaiting, hrows, List.mem_map]
  constructor
  · rintro ⟨⟨k, hk, rfl⟩, hawaiting⟩
    rw [hsame] at hawaiting
    exact ⟨k, mem_awaiting.2 ⟨hk, hawaiting⟩, rfl⟩
  · rintro ⟨k, hk, rfl⟩
    obtain ⟨hk, hawaiting⟩ := mem_awaiting.1 hk
    exact ⟨⟨k, hk, rfl⟩, by rwa [hsame]⟩

/-- The server that is asked what became of a message, and the identifier that it gave out. -/
def Effect.inquiry? : Effect → Option (String × String)
  | .mta server (.status remoteId) => some (server, remoteId)
  | _ => none

/-- What a server is asked by the engine. -/
def Event.inquiry? (v : Event) : Option (String × String) := v.named Effect.inquiry? .engine

namespace Engine

/-- What is asked about an item: its server, if it is registered, about the identifier that it gave
out. -/
def inquiry? (e : Engine) (i : Item) : Option (String × String) :=
  if e.registry.contains i.server then i.remoteId.map fun remoteId => (i.server, remoteId) else none

section

variable {kind : Effect → Prop}

theorem asks_recordStatus_of_store (h : ∀ call, kind (.store call)) (i : Item) (r : RemoteStatus) :
    Asks kind (recordStatus i r) := by
  unfold recordStatus
  split
  · exact ⟨h _, fun _ => trivial⟩
  · exact ⟨h _, fun _ => trivial⟩
  · trivial

theorem asks_reevaluateAll_of_store (h : ∀ call, kind (.store call)) (jobs : List Uuid) :
    Asks kind (reevaluateAll jobs) := by
  have hfirst : ∀ id, Asks kind (reevaluate id).run := by
    intro id
    refine asks_bind (asks_store (h _)) fun stats => asks_bind (asks_store (h _)) fun j => ?_
    split
    · exact asks_pure false
    · exact asks_bind (asks_store (h _)) fun _ => asks_pure _
  induction jobs with
  | nil => trivial
  | cons id rest ih => exact Asks.bind (hfirst id) fun _ => Asks.bind ih fun _ => trivial

end

/-- Whatever a server answers, it is asked about an item once. -/
theorem tallies_reconcileItem (e : Engine) (i : Item) :
    Tallies Effect.inquiry? (e.reconcileItem i) ↑(e.inquiry? i).toList := by
  unfold reconcileItem inquiry?
  cases i.remoteId with
  | none =>
      rw [Option.map_none, ite_self]
      rfl
  | some remoteId =>
      dsimp only
      split
      · refine ⟨0, rfl, fun answer => ?_⟩
        cases answer with
        | ok r => exact Program.tallies_of_asks (asks_recordStatus_of_store (fun _ => rfl) i r)
        | error error => rfl
      · rfl

/-- What a pass does when its items have been stamped. -/
def settle (e : Engine) (items : List Item) : Service String TickReport := do
  let moved ← ExceptT.lift (.forEach .permitted items e.reconcileItem)
  let jobs := ((items.zip moved).filter Prod.snd).map fun p => p.1.jobId
  let finished ← ExceptT.lift (reevaluateAll (distinct jobs))
  return { reconciled := jobs.length, finished }

theorem reconcileItems_eq (e : Engine) (items : List Item) :
    e.reconcileItems items =
      (Service.store (.checkItems (items.map Item.id)) >>= fun _ => e.settle items) :=
  rfl

theorem asks_settle (e : Engine) {items : List Item}
    (hitems : ∀ i ∈ items, scope.items i.id .queued) (hcounts : ∀ id, scope.counts id)
    (hmoves : ∀ id sources target, scope.moves id sources target) :
    Asks (Effect.Within scope) (e.settle items).run :=
  asks_bind (asks_lift (Asks.forEach fun i hi => asks_reconcileItem e (hitems i hi))) fun _ =>
    asks_review (fun id _ => hcounts id) fun id _ _ _ _ _ => hmoves id _ _

theorem tallies_settle (e : Engine) (items : List Item) :
    Tallies Effect.inquiry? (e.settle items).run ↑(items.filterMap e.inquiry?) := by
  have hall : Tallies Effect.inquiry? (e.settle items).run (↑(items.filterMap e.inquiry?) + 0) := by
    rw [settle, run_lift_bind]
    refine (Tallies.forEach e.inquiry? fun i _ => e.tallies_reconcileItem i).bind fun moved => ?_
    apply Program.tallies_of_asks
    exact asks_bind (asks_lift (asks_reevaluateAll_of_store (fun _ => rfl) _)) fun _ => asks_pure _
  rwa [add_zero] at hall

end Engine

/-- An event that stamps an item at an instant. -/
def Event.stampsAt (time : Timestamp) (item : Uuid) (v : Event) : Prop :=
  v.stamps item = true ∧ (v.after.item? item).bind Item.checkedAt = some time

/-- To stamp an item takes a scope that lets it be stamped. -/
theorem not_stamps_of_within {item : Uuid} (hwithin : effect.Within scope)
    (hstamps : ¬ scope.stamps item) (before after : Tables) :
    Event.stamps item ⟨actor, effect, answer, before, after⟩ = false := by
  cases effect with
  | store call =>
      cases call with
      | checkItems ids =>
          rw [Event.stamps, Bool.eq_false_iff]
          exact fun hmem => hstamps (hwithin item (by simpa using hmem))
      | _ => rfl
  | _ => rfl

/-- What the engine's requests make of a scene, if items are stamped at an instant. -/
def Surroundings.checking (around : Surroundings) (time : Timestamp) : Acts Scene :=
  fun effect answer u v => around.acts .engine effect answer u v ∧
    ∀ ids, effect = .store (.checkItems ids) → v.tables = u.tables.checkItems ids time

/-- The same while operators go on. -/
abbrev Surroundings.passing (around : Surroundings) (time : Timestamp) : Acts Scene :=
  amid (Others around .engine) (around.checking time)

/-- A pass of checks that stamps at an instant went from one scene to another, while operators went
on. -/
def Engine.Passes (e : Engine) (around : Surroundings) (time : Timestamp) (u v : Scene) : Prop :=
  ∃ result, e.reconcile.run.Completes (around.passing time) u result v

/-- A pass from one scene to another drew some items.  Those and no others were stamped, their
servers were asked about them and about no others, and all others in the queue are as they were. -/
structure HasDrawn (e : Engine) (time : Timestamp) (items : List Item) (u v : Scene) : Prop where
  wellFormed : v.tables.IsWellFormed
  kept : ∀ i ∈ u.tables.awaiting, i ∉ items → i ∈ v.tables.awaiting
  old : ∀ i ∈ v.tables.awaiting, i ∈ u.tables.awaiting ∧ i ∉ items ∨ i.checkedAt = some time
  events : ∃ events, v.history = events ++ u.history ∧
    (∀ i ∈ items, ∃ event ∈ events, event.stampsAt time i.id) ∧
    (∀ event ∈ events, ∀ item, event.stamps item = true → item ∈ items.map Item.id) ∧
    (events.filterMap Event.inquiry?).Perm (items.filterMap e.inquiry?)

section

variable {mayFail : StoreCall → Prop} {items : List Item}

/-- A call that does not fail is served while operators go on, and then the program does. -/
theorem completes_served {ε β : Type} [OfFailure ε] {call : StoreCall}
    {k : call.Reply → Service ε β} {result : Except ε β} (hnot : ¬ mayFail call)
    (h : (Service.store call >>= k).run.Completes ((Surroundings.failing mayFail).passing time) u
      result v) :
    ∃ x y m now, ReflTransGen (Others (.failing mayFail) .engine) u x ∧
      (Surroundings.failing mayFail).checking time (.store call)
        (.ok (x.tables.serve now call).1) x y ∧
      y.tables = (x.tables.serve now call).2 ∧
      ReflTransGen (Others (.failing mayFail) .engine) y m ∧
      (k (x.tables.serve now call).1).run.Completes ((Surroundings.failing mayFail).passing time) m
        result v := by
  have hserved : ∀ {answer : call.Answer} {m : Scene},
      (Surroundings.failing mayFail).passing time (.store call) answer u m →
        ∃ x y now, answer = .ok (x.tables.serve now call).1 ∧
          ReflTransGen (Others (.failing mayFail) .engine) u x ∧
          (Surroundings.failing mayFail).checking time (.store call)
            (.ok (x.tables.serve now call).1) x y ∧
          y.tables = (x.tables.serve now call).2 ∧
          ReflTransGen (Others (.failing mayFail) .engine) y m := by
    rintro answer m ⟨x, y, hbefore, hown, hafter⟩
    cases answer with
    | error failure => exact absurd hown.1.1 hnot
    | ok reply =>
        obtain ⟨now, rfl, htables⟩ := Surroundings.acts_ok hown.1
        exact ⟨x, y, now, rfl, hbefore, hown, htables, hafter⟩
  rcases Service.completes_of_bind h with ⟨reply, m, hcall, hrest⟩ | ⟨error, hcall, -⟩
  · obtain ⟨answer, hacts, hreply⟩ := Service.completes_store.1 hcall
    obtain ⟨x, y, now, rfl, hbefore, hown, htables, hafter⟩ := hserved hacts
    obtain rfl := Except.ok.inj hreply
    exact ⟨x, y, m, now, hbefore, hown, htables, hafter, hrest⟩
  · obtain ⟨answer, hacts, hreply⟩ := Service.completes_store.1 hcall
    obtain ⟨x, y, now, rfl, -⟩ := hserved hacts
    cases hreply

/-- The requests of a pass over some items. -/
abbrev LogsPass (ids : List Uuid) (inquiries : Multiset (String × String)) (u v : Scene) : Prop :=
  Logs .engine Effect.inquiry? (Effect.Within (.confined (· ∈ ids) fun _ => True)) inquiries u v

/-- None but the items of a pass are stamped. -/
theorem mem_of_stamps {event : Event} {item : Uuid}
    (h : event.IsOrderly .engine (Effect.Within (.confined (· ∈ ids) fun _ => True)))
    (hstamps : event.stamps item = true) : item ∈ ids := by
  obtain ⟨actor, effect, answer, before, after⟩ := event
  by_contra hout
  have hnot : Event.stamps item ⟨actor, effect, answer, before, after⟩ = false := by
    cases actor with
    | engine => exact not_stamps_of_within (h.1 rfl) hout before after
    | operator place call => exact not_stamps_of_within (h.2 (by simp)) id before after
  rw [hnot] at hstamps
  cases hstamps

/-- Rows that are stamped in the tables. -/
theorem checkedAt_checkItems (ht : t.IsWellFormed) (hi : i ∈ t.items) (hid : i.id ∈ ids) :
    ((t.checkItems ids time).item? i.id).bind Item.checkedAt = some time := by
  have hrow := Tables.item?_serve_of_some time ht (.checkItems ids)
    ((Tables.item?_eq_some_iff ht).2 ⟨hi, rfl⟩)
  have hafter : (t.checkItems ids time).item? i.id = some { i with checkedAt := some time } := by
    simpa [Tables.serve, StoreCall.onItem, hid] using hrow
  rw [hafter, Option.bind_some]

section

variable {x y : Scene} {answer : (StoreCall.checkItems (items.map Item.id)).Answer}
  {result : Except String TickReport}

/-- When some items of the queue were stamped and settled, all others are in it as they were. -/
theorem awaiting_of_stamp (hu : u.tables.IsWellFormed) (hitems : items ⊆ u.tables.awaiting)
    (hx : x.tables.IsWellFormed) (hsame : x.tables.awaiting = u.tables.awaiting)
    (hstamp : around.checking time (.store (.checkItems (items.map Item.id))) answer x y)
    (hafter : ReflTransGen (Others around .engine) y w)
    (hrest : (e.settle items).run.Completes (around.passing time) w result v) :
    v.tables.IsWellFormed ∧
      (∀ i ∈ u.tables.awaiting, i ∉ items → i ∈ v.tables.awaiting) ∧
      ∀ i ∈ v.tables.awaiting, i ∈ u.tables.awaiting ∧ i ∉ items ∨ i.checkedAt = some time := by
  have hy : y.tables.IsWellFormed := Surroundings.acts_isWellFormed hx hstamp.1
  obtain ⟨hw, hqueue⟩ := Others.awaiting_many hy hafter
  obtain ⟨hv, hdequeues⟩ := Dequeues.of_completes
    (e.asks_settle (fun i hi => ⟨rfl, List.mem_map_of_mem hi⟩) (fun _ => trivial)
      fun _ _ _ => trivial) (fun _ _ _ _ h => h.1) hw hrest
  have hstamped : ∀ i, i ∈ w.tables.awaiting ↔ ∃ k ∈ u.tables.awaiting,
      (StoreCall.checkItems (items.map Item.id)).onItem time k = i := by
    intro i
    rw [hqueue, hstamp.2 _ rfl, Tables.mem_awaiting_checkItems, hsame]
  refine ⟨hv, fun i hi hout => ?_, fun i hi => ?_⟩
  · have hid : i.id ∉ items.map Item.id := fun hid =>
      hout (Tables.mem_of_key (Tables.awaiting_ids_nodup hu) hi (fun _ hk => hitems hk) hid)
    exact hdequeues.kept i ((hstamped i).2 ⟨i, hi, if_neg (by simpa using hid)⟩) hid
  · obtain ⟨k, hk, hrow⟩ := (hstamped i).1 (hdequeues.old hi)
    simp only [StoreCall.onItem] at hrow
    split at hrow
    · exact .inr (by rw [← hrow])
    · rename_i hid
      obtain rfl := hrow
      exact .inl ⟨hk, fun hmem => hid (by simpa using List.mem_map_of_mem hmem)⟩

/-- Items are stamped, and then their servers are asked about them. -/
theorem events_of_stamp (hitems : items ⊆ x.tables.awaiting) (hx : x.tables.IsWellFormed)
    (hlog : LogsPass (items.map Item.id) 0 u x)
    (hstamp : around.checking time (.store (.checkItems (items.map Item.id))) answer x y)
    (hafter : ReflTransGen (Others around .engine) y w)
    (hrest : (e.settle items).run.Completes (around.passing time) w result v) :
    ∃ events, v.history = events ++ u.history ∧
      (∀ i ∈ items, ∃ event ∈ events, event.stampsAt time i.id) ∧
      (∀ event ∈ events, ∀ item, event.stamps item = true → item ∈ items.map Item.id) ∧
      (events.filterMap Event.inquiry?).Perm (items.filterMap e.inquiry?) := by
  have hwithin : (Effect.store (.checkItems (items.map Item.id))).Within
      (.confined (· ∈ items.map Item.id) fun _ => True) := fun _ h => h
  have hsettling : LogsPass (items.map Item.id) ↑(items.filterMap e.inquiry?) w v :=
    .of_completes (e.asks_settle (fun i hi => List.mem_map_of_mem hi) (fun _ => trivial)
      fun _ _ _ => trivial) (e.tallies_settle items) (fun _ _ _ _ h => h.1) hrest
  have hlast : LogsPass (items.map Item.id) (0 + ↑(items.filterMap e.inquiry?)) y v :=
    (Logs.of_others _ _ hafter).trans hsettling
  obtain ⟨events, hhistory, htally, horderly⟩ :=
    (hlog.trans (.of_acts Effect.inquiry? hwithin hstamp.1)).trans hlast
  have hmem : (⟨.engine, .store (.checkItems (items.map Item.id)), answer, x.tables,
      y.tables⟩ : Event) ∈ events := by
    obtain ⟨earlier, hearlier, -⟩ := hlog
    obtain ⟨later, hlater, -⟩ := hlast
    rw [hlater, Surroundings.acts_history hstamp.1, hearlier, ← List.cons_append,
      ← List.append_assoc, List.append_left_inj] at hhistory
    rw [← hhistory]
    exact List.mem_append_right _ List.mem_cons_self
  refine ⟨events, hhistory, fun i hi => ⟨_, hmem, ?_, ?_⟩,
    fun event hevent item hstamps => mem_of_stamps (horderly event hevent) hstamps, ?_⟩
  · simpa [Event.stamps] using ⟨i, hi, rfl⟩
  · rw [hstamp.2 _ rfl]
    exact checkedAt_checkItems hx (Tables.mem_awaiting.1 (hitems hi)).1 (List.mem_map_of_mem hi)
  · rw [← Multiset.coe_eq_coe]
    refine htally.trans ?_
    simp [Effect.inquiry?]

end

/-- If the store can list and stamp items, a pass draws the first items of the queue as it is when
the pass begins. -/
theorem Engine.Passes.hasDrawn (hlists : ¬ mayFail (.queuedItems e.settings.reconcileBatchSize))
    (hstamps : ∀ ids, ¬ mayFail (.checkItems ids)) (hu : u.tables.IsWellFormed)
    (h : e.Passes (.failing mayFail) time u v) :
    HasDrawn e time (u.tables.queuedItems e.settings.reconcileBatchSize) u v := by
  obtain ⟨result, hrun⟩ := h
  obtain ⟨x, y, m, now, hbefore, hlist, htables, hafter, hrun⟩ := completes_served hlists hrun
  obtain ⟨hx, hqueue⟩ := Others.awaiting_many hu hbefore
  have hread : y.tables = x.tables := htables
  obtain ⟨hm, hlater⟩ := Others.awaiting_many (Surroundings.acts_isWellFormed hx hlist.1) hafter
  rw [hread, hqueue] at hlater
  have hitems : (x.tables.serve now (.queuedItems e.settings.reconcileBatchSize)).1 =
      u.tables.queuedItems e.settings.reconcileBatchSize := Tables.queuedItems_congr hqueue _
  rw [hitems] at hrun
  have hlog : ∀ ids, LogsPass ids 0 u m := by
    intro ids
    have hwithin : (Effect.store (.queuedItems e.settings.reconcileBatchSize)).Within
        (.confined (· ∈ ids) fun _ => True) := trivial
    have hone := Logs.of_acts Effect.inquiry? hwithin hlist.1
    simpa [Effect.inquiry?] using
      ((Logs.of_others _ _ hbefore).trans hone).trans (.of_others _ _ hafter)
  split at hrun
  · -- nothing waits
    rename_i hempty
    obtain ⟨-, rfl⟩ := Program.completes_pure.1 hrun
    rw [List.isEmpty_iff.1 hempty]
    obtain ⟨events, hhistory, htally, horderly⟩ := hlog []
    refine ⟨hm, fun i hi _ => hlater ▸ hi, fun i hi => .inl ⟨hlater ▸ hi, by simp⟩, events,
      hhistory, by simp,
      fun event hevent item hitem => mem_of_stamps (horderly event hevent) hitem, ?_⟩
    rw [← Multiset.coe_eq_coe]
    exact htally
  · rw [reconcileItems_eq] at hrun
    obtain ⟨x', y', m', now', hbefore', hstamp, -, hafter', hrest⟩ :=
      completes_served (hstamps _) hrun
    obtain ⟨hx', hqueue'⟩ := Others.awaiting_many hm hbefore'
    rw [hlater] at hqueue'
    have hsub := Tables.queuedItems_subset u.tables e.settings.reconcileBatchSize
    have hlog' := (hlog ((u.tables.queuedItems e.settings.reconcileBatchSize).map Item.id)).trans
      (.of_others _ _ hbefore')
    rw [add_zero] at hlog'
    obtain ⟨hv, hkept, hold⟩ := awaiting_of_stamp hu hsub hx' hqueue' hstamp hafter' hrest
    exact ⟨hv, hkept, hold,
      events_of_stamp (hqueue' ▸ hsub) hx' hlog' hstamp hafter' hrest⟩

end

end Mailroom
