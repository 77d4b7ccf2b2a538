import Mailroom.Proofs.Concurrency.Alone
import Mailroom.Proofs.Delivery.Converging

/-!
Batches whose tasks take turns in any order.  What is done for one item or one job depends only on the
parts of the scene that belong to it, and those of different items and jobs are disjoint.  Main
statement: when jobs are driven side by side, or the items of batches are dispatched side by side,
every order of turns comes to the same reports, rows and messages, instants aside.
-/

namespace Mailroom

variable {b : Behaviour} {g : Ground} {parts : Set Part} {e : Engine}

instance : Nonempty Engine.ItemOutcome := ⟨.queued⟩

namespace Converges

theorem writeQueued (id : Uuid) (remoteId : String) (more attempt : Nat) :
    Converges b g {.item id} (Alike {.item id}) (Engine.writeQueued id remoteId more attempt) := by
  induction more generalizing attempt with
  | zero =>
      rw [Engine.writeQueued, ← bind_pure (Program.request _)]
      exact request trivial subset_rfl (fun _ _ h => h) pure
  | succ more ih =>
      refine request trivial subset_rfl (fun _ _ h => h) fun answer => ?_
      cases answer with
      | ok found => exact pure _
      | error failure =>
          exact request trivial (Set.empty_subset _) (fun _ _ h => h) fun _ => ih (attempt + 1)

theorem recordQueued (id : Uuid) (remoteId : String) :
    Converges b g {.item id} (Alike {.item id}) (Engine.recordQueued id remoteId) := by
  refine bind (writeQueued id remoteId _ _) fun written => ?_
  cases written with
  | ok found => exact request trivial subset_rfl (fun _ _ h => h) fun _ => pure _
  | error failure => exact request trivial subset_rfl (fun _ _ h => h) fun _ => pure _

/-- To resolve content is to read. -/
theorem resolve (source : ContentSource) (ctx : RenderContext) :
    Converges b g parts (Alike parts) (Content.resolve source ctx).run := by
  unfold Content.resolve
  split
  · exact found _ _
  · rename_i reference _
    have hlookUp : Converges b g parts (Alike parts)
        (Content.lookUp reference : Service DispatchError _).run := by
      cases reference with
      | byId id => exact storeOnly trivial (Set.empty_subset _) fun _ _ h => h
      | byName name => exact storeOnly trivial (Set.empty_subset _) fun _ _ h => h
    have hglobals : Converges b g parts (Alike parts)
        (Content.globalsOf ctx : Service DispatchError _).run := by
      unfold Content.globalsOf
      split
      · exact pure _
      · exact storeOnly trivial (Set.empty_subset _) fun _ _ h => h
    exact serviceBind (serviceBind hlookUp fun _ => found _ _) fun _ =>
      serviceBind hglobals fun _ => pure _

theorem loadContext (j : Job) : Converges b g parts (Alike parts) (Engine.loadContext j).run := by
  refine store trivial (Set.empty_subset _) (fun _ _ h => h) fun reply => ?_
  refine serviceBind (found _ reply) fun campaign => ?_
  refine store trivial (Set.empty_subset _) (fun _ _ h => h) fun variants => ?_
  exact store trivial (Set.empty_subset _) (fun _ _ h => h) fun vars => pure _

theorem item_mem_ofItem (id : Uuid) : ({.item id} : Set Part) ⊆ Part.ofItem id :=
  Set.singleton_subset_iff.2 (.inl rfl)

theorem sendItem (c : Engine.JobContext) (i : Item) :
    Converges b g (Part.ofItem i.id) (Alike (Part.ofItem i.id)) (e.sendItem c i).run := by
  refine store trivial (Set.empty_subset _) (fun _ _ h => h) fun reply => ?_
  refine serviceBind (found _ reply) fun r => ?_
  refine serviceBind (bind (resolve _ _) fun _ => pure _) fun content => ?_
  split
  · exact pure _
  · have hsub : (Effect.mta i.server (.submit (c.message i r content))).footprint g ⊆
        Part.ofItem i.id := by
      rw [Effect.footprint, Message.itemHeader?, Engine.itemHeader_of_message]
      exact Set.singleton_subset_iff.2 (.inr rfl)
    refine serviceRequest trivial hsub (fun _ _ h => by rw [h]) fun answer => ?_
    cases answer with
    | ok remoteId => exact pure _
    | error error => exact pure _

theorem attempt (context : Except String Engine.JobContext) (i : Item) :
    Converges b g (Part.ofItem i.id) (Alike (Part.ofItem i.id)) (e.attempt context i) := by
  cases context with
  | ok c => exact sendItem c i
  | error text => exact pure _

theorem dispatchItem (context : Except String Engine.JobContext) (i : Item) :
    Converges b g (Part.ofItem i.id) (Alike (Part.ofItem i.id)) (e.dispatchItem context i) := by
  refine bind (attempt context i) fun result => ?_
  cases result with
  | ok remoteId => exact (recordQueued i.id remoteId).mono (item_mem_ofItem i.id)
  | error text =>
      exact request trivial (item_mem_ofItem i.id) (fun _ _ h => h) fun _ => pure _

variable {j : Job} {items : List Item}

theorem ofItem_apart {id other : Uuid} (hne : id ≠ other) :
    ∀ part ∈ Part.ofItem id, part ∉ Part.ofItem other := by
  rintro part (rfl | rfl) (h | h)
  · exact hne (Part.item.inj h)
  · cases h
  · cases h
  · exact hne (Uuid.display_injective (Option.some.inj (Part.mail.inj h)))

def ofItems (items : List Item) : Set Part := {part | ∃ i ∈ items, part ∈ Part.ofItem i.id}

theorem dispatchItems (context : Except String Engine.JobContext)
    (hnodup : (items.map Item.id).Nodup) : Converges b g (ofItems items) (Alike (ofItems items))
      (Program.forEach .permitted items (e.dispatchItem context)) :=
  have hsub : ∀ i ∈ items, Part.ofItem i.id ⊆ ofItems items := fun i hi _ hpart => ⟨i, hi, hpart⟩
  forEach (fun i => Part.ofItem i.id) (fun i => Alike (Part.ofItem i.id)) (isLook_alike g _)
    ((List.pairwise_map.1 hnodup).imp ofItem_apart) hsub (fun i hi _ _ h => h.mono (hsub i hi))
    fun i _ => dispatchItem context i

/-- Every item is on file for the job. -/
def AreFiled (g : Ground) (job : Uuid) (items : List Item) : Prop :=
  ∀ i ∈ items, (i.id, job) ∈ g.files

theorem ofItem_subset_partsOf {id job : Uuid} (h : (id, job) ∈ g.files) :
    Part.ofItem id ⊆ g.partsOf job :=
  fun _ hpart => .inr ⟨id, h, hpart⟩

theorem recordKnown (known : List (Uuid × String)) (hitems : AreFiled g j.id items) :
    Converges b g (g.partsOf j.id) (Alike (g.partsOf j.id)) (Engine.recordKnown known items) := by
  induction items with
  | nil => exact pure _
  | cons i rest ih =>
      obtain ⟨hi, hrest⟩ := List.forall_mem_cons.1 hitems
      unfold Engine.recordKnown
      split
      · exact bind (ih hrest) fun _ => pure _
      · refine bind ((recordQueued i.id _).mono ?_) fun outcome => bind (ih hrest) fun _ => pure _
        exact (item_mem_ofItem i.id).trans (ofItem_subset_partsOf hi)

theorem refreshStats (j : Job) : Converges b g (g.partsOf j.id) (Alike (g.partsOf j.id))
    (Service.store (.refreshStats j.id) : Service String _).run :=
  storeOnly trivial subset_rfl fun _ _ h => h

/-- What is left of a batch is sent side by side. -/
theorem sendLeft (recorded : TickReport) (hnodup : (items.map Item.id).Nodup)
    (hitems : AreFiled g j.id items) :
    Converges b g (g.partsOf j.id) (Alike (g.partsOf j.id)) (e.sendLeft j items recorded).run := by
  unfold Engine.sendLeft
  split
  · exact serviceBind (refreshStats j) fun _ => pure _
  · refine serviceBind (lift (loadContext j)) fun context => ?_
    have hsub : ofItems items ⊆ g.partsOf j.id := by
      rintro part ⟨i, hi, hpart⟩
      exact ofItem_subset_partsOf (hitems i hi) hpart
    have hsent := (dispatchItems (b := b) (g := g) (e := e) context hnodup).mono hsub
    exact serviceBind (lift hsent) fun outcomes => serviceBind (refreshStats j) fun _ => pure _

theorem finish (j : Job) :
    Converges b g (g.partsOf j.id) (Alike (g.partsOf j.id)) (Engine.finish j).run := by
  refine store trivial subset_rfl (fun _ _ h => h) fun stats => ?_
  cases houtcome : stats.outcome with
  | none => exact pure _
  | some outcome =>
      have hjob : ({.job j.id} : Set Part) ⊆ g.partsOf j.id := Set.singleton_subset_iff.2 (.inl rfl)
      refine store_of_agree (stats.isOutcome_outcome houtcome) hjob (fun a a' h => ?_)
        fun moved => pure _
      -- only whether the job was moved matters
      cases a with
      | ok moved =>
          cases a' with
          | ok moved' =>
              have hmoved : moved.isSome = moved'.isSome := Except.ok.inj h
              simp only [goOn, hmoved]
          | error failure => cases h
      | error failure =>
          cases a' with
          | ok moved => cases h
          | error failure' =>
              obtain rfl : failure = failure' := Except.error.inj h
              rfl

end Converges

namespace Engine

/-- What is left when the items that are known to be taken have been recorded. -/
theorem recordKnown_bind {β : Type} (known : List (Uuid × String)) (items : List Item)
    (f : List Item × TickReport → Program β) : recordKnown known items >>= f =
      recordKnown known items >>= fun out =>
        f (items.filter fun i => (known.lookup i.id).isNone, out.2) := by
  induction items generalizing f with
  | nil => rfl
  | cons i rest ih =>
      unfold recordKnown
      split
      · rename_i hnone
        rw [bind_assoc, ih]
        simp [hnone]
      · rename_i remoteId hknown
        simp only [bind_assoc, pure_bind]
        refine congrArg (recordQueued i.id remoteId >>= ·) (funext fun outcome => ?_)
        rw [ih]
        simp [hknown]

theorem recordKnown_congr {known known' : List (Uuid × String)} {items : List Item}
    (h : ∀ i ∈ items, known.lookup i.id = known'.lookup i.id) :
    recordKnown known items = recordKnown known' items := by
  induction items with
  | nil => rfl
  | cons i rest ih =>
      obtain ⟨hi, hrest⟩ := List.forall_mem_cons.1 h
      rw [recordKnown, recordKnown, hi, ih hrest]

end Engine

namespace Converges

variable {j : Job} {items : List Item}

/-- Of all that the engine keeps in mind only what it knows of the batch matters. -/
theorem driveItems (hnodup : (items.map Item.id).Nodup) (hitems : AreFiled g j.id items) :
    Converges b g (g.partsOf j.id) (Alike (g.partsOf j.id)) (e.driveItems j items).run := by
  refine serviceRequest trivial (Set.empty_subset _) (fun known known' hagree => ?_)
    fun known => ?_
  · have hlookup : ∀ i ∈ items, known.lookup i.id = known'.lookup i.id :=
      fun i hi => hagree i.id (ofItem_subset_partsOf (hitems i hi) (.inl rfl))
    simp only [Engine.recordKnown_congr hlookup]
  · rw [Service.run_lift_bind, Engine.recordKnown_bind]
    refine bind (recordKnown known hitems) fun out => sendLeft out.2 ?_ fun i hi => ?_
    · exact (List.filter_sublist.map Item.id).nodup hnodup
    · exact hitems i (List.mem_of_mem_filter hi)

theorem areFiled_pendingItems {t : Tables} {job : Uuid} {limit : Int} (ht : t.ground = g) :
    AreFiled g job (t.pendingItems job limit) := by
  intro i hi
  obtain ⟨hmem, rfl, -⟩ := Tables.mem_pendingItems hi
  rw [← ht]
  exact List.mem_map_of_mem hmem

/-- The batch that is drawn is the same in scenes that are the same in the parts of the job. -/
theorem drive (e : Engine) (j : Job) :
    Converges b g (g.partsOf j.id) (Same (g.partsOf j.id)) (e.drive j).run := by
  rw [Engine.drive, run_store_bind]
  refine request_of_same (isLook_same g _) trivial subset_rfl
    (fun hu hu' hsame hacts hacts' => ?_) fun {u answer v} hu hacts => ?_
  · obtain ⟨failure, rfl, rfl, -⟩ | ⟨now, now', rfl, rfl, -⟩ :=
      store_cases_of_alike (Set.Subset.refl (g.partsOf j.id)) hsame.alike hacts hacts'
    · rfl
    · exact congrArg (fun items => goOn _ (.ok items)) (pendingItems_of_sight hu hu' hsame _)
  · obtain ⟨-, ⟨failure, -, rfl, -⟩ | ⟨-, now, rfl, -⟩⟩ := store_cases hacts
    · exact pure _
    · rw [goOn]
      split
      · exact finish j
      · exact driveItems (Tables.pendingItems_nodup hu.wellFormed _ _)
          (areFiled_pendingItems hu.ground)

theorem partsOf_apart (hfiles : (g.files.map Prod.fst).Nodup) {job other : Uuid}
    (hne : job ≠ other) : ∀ part ∈ g.partsOf job, part ∉ g.partsOf other := by
  rintro part (rfl | ⟨id, hid, hpart⟩) (hjob | ⟨id', hid', hpart'⟩)
  · exact hne (Part.job.inj hjob)
  · rcases hpart' with h | h <;> cases h
  · subst hjob
    rcases hpart with h | h <;> cases h
  · obtain rfl : id = id' := by
      by_contra hids
      exact ofItem_apart hids part hpart hpart'
    have hfile := List.inj_on_of_nodup_map hfiles hid hid' rfl
    exact hne (Prod.mk.inj hfile).2

theorem driveJobs (e : Engine) {jobs : List Job} (hfiles : (g.files.map Prod.fst).Nodup)
    (hjobs : (jobs.map Job.id).Nodup) :
    Converges b g Set.univ (Same Set.univ)
      (Program.forEach .free jobs fun j => (e.drive j).run) :=
  forEach (fun j => g.partsOf j.id) (fun j => Same (g.partsOf j.id)) (isLook_same g _)
    ((List.pairwise_map.1 hjobs).imp (partsOf_apart hfiles)) (fun _ _ => Set.subset_univ _)
    (fun _ _ _ _ h part _ => h part trivial) fun j _ => drive e j

/-- The items of several batches, each with what could be loaded for it. -/
theorem dispatchBatches (e : Engine) {batches : List (Except String Engine.JobContext × List Item)}
    (hitems : ((batches.flatMap Prod.snd).map Item.id).Nodup) :
    Converges b g Set.univ (Same Set.univ)
      (Program.forEach .free batches fun batch =>
        Program.forEach .permitted batch.2 (e.dispatchItem batch.1)) := by
  rw [List.map_flatMap, List.nodup_flatMap] at hitems
  obtain ⟨hnodup, hapart⟩ := hitems
  refine forEach (fun batch => ofItems batch.2) (fun batch => Alike (ofItems batch.2))
    (isLook_same g _) (hapart.imp fun {x y} hdisjoint => ?_) (fun _ _ => Set.subset_univ _)
    (fun _ _ _ _ h => (Same.alike h).mono (Set.subset_univ _))
    fun batch hbatch => dispatchItems batch.1 (hnodup batch hbatch)
  rintro part ⟨i, hi, hpart⟩ ⟨k, hk, hpart'⟩
  have hne : i.id ≠ k.id := fun hid =>
    hdisjoint (List.mem_map_of_mem hi) (hid ▸ List.mem_map_of_mem hk)
  exact ofItem_apart hne part hpart hpart'

end Converges

/-- Some tables without the instants that tell when jobs and items were last changed. -/
def Tables.undated (t : Tables) : Tables :=
  { t with items := t.items.map Item.undated, jobs := t.jobs.map Job.undated }

/-- The messages that were given to a server, the latest first. -/
def Scene.mailTo (s : Scene) (server : String) : List Message :=
  s.letters.filterMap fun letter => if letter.1 = server then some letter.2 else none

variable {u v : Scene}

theorem items_undated (hu : u.Fits g) : u.tables.items.map Item.undated =
    g.files.filterMap fun file => (u.tables.item? file.1).map Item.undated := by
  have hitems := Tables.filterMap_item? hu.wellFormed fun _ => id
  rw [← hu.ground, Tables.ground, List.filterMap_map]
  conv_lhs => rw [← hitems, List.map_filterMap]
  rfl

theorem jobs_undated (hu : u.Fits g) : u.tables.jobs.map Job.undated =
    g.jobs.filterMap fun id => (u.tables.job? id).map Job.undated := by
  rw [← hu.ground, Tables.ground, List.filterMap_map, ← List.filterMap_eq_map]
  refine List.filterMap_congr fun j hj => ?_
  rw [Function.comp_apply, Function.comp_apply,
    (Tables.job?_eq_some_iff hu.wellFormed).2 ⟨hj, rfl⟩, Option.map_some]

theorem undated_of_alike (hu : u.Fits g) (hv : v.Fits g) (h : Alike Set.univ u v) :
    u.tables.undated = v.tables.undated := by
  have hitems : u.tables.items.map Item.undated = v.tables.items.map Item.undated := by
    rw [items_undated hu, items_undated hv]
    exact List.filterMap_congr fun file _ => (Sight.item.inj (h (.item file.1) trivial)).1
  have hjobs : u.tables.jobs.map Job.undated = v.tables.jobs.map Job.undated := by
    rw [jobs_undated hu, jobs_undated hv]
    exact List.filterMap_congr fun id _ => Sight.job.inj (h (.job id) trivial)
  have hothers : u.tables.ground.others = v.tables.ground.others := by rw [hu.ground, hv.ground]
  calc u.tables.undated
      = { u.tables.ground.others with
          items := u.tables.items.map Item.undated, jobs := u.tables.jobs.map Job.undated } := rfl
    _ = { v.tables.ground.others with
          items := v.tables.items.map Item.undated, jobs := v.tables.jobs.map Job.undated } := by
        rw [hothers, hitems, hjobs]
    _ = v.tables.undated := rfl

/-- Messages are the same but for their order if those with each header are. -/
theorem mailTo_of_alike (h : Alike Set.univ u v) (server : String) :
    (u.mailTo server).Perm (v.mailTo server) := by
  refine List.Perm.filterMap _ (List.perm_iff_count.2 fun letter => ?_)
  have hheader := Sight.mail.inj (h (.mail letter.2.itemHeader?) trivial)
  have hcount : ∀ letters : List (String × Message), (letters.filter fun other =>
      other.2.itemHeader? == letter.2.itemHeader?).count letter = letters.count letter :=
    fun _ => List.count_filter (beq_self_eq_true _)
  rw [← hcount u.letters, hheader, hcount]

namespace Behaviour

variable {α : Type}

/-- What a scene is answered with, when it is always the same instant. -/
def circumstances (b : Behaviour) (s : Scene) : Circumstances where
  answer
    | server, .submit message => b.answer server message
    | _, _ => .error (.status 503 "")
  failure? call := b.failure? call (s.tried call)
  now := ⟨0, 0⟩

theorem acts_respond (b : Behaviour) (e : Effect) (s : Scene) :
    b.acts e ((b.circumstances s).respond .engine e s).1 s
      ((b.circumstances s).respond .engine e s).2 := by
  refine ⟨?_, Circumstances.acts_respond (fun _ _ => trivial) e s⟩
  cases e with
  | store call =>
      cases hfailure : b.failure? call (s.tried call) with
      | some failure =>
          simp [Allows, Circumstances.respond, Circumstances.reaction, circumstances, hfailure]
      | none =>
          simp [Allows, Circumstances.respond, Circumstances.reaction, circumstances, hfailure]
  | mta server call =>
      cases call with
      | submit message => rfl
      | _ => trivial
  | _ => trivial

/-- From a scene a program comes to an end, and in whatever order its tasks take their turns, to the
same result, to the same tables but for the instants of changes, to the same that the engine keeps in
mind, and to the same messages for each server. -/
structure Confluent (b : Behaviour) (w : Scene) (p : Program α) : Prop where
  comes : ∃ a v, p.Completes b.acts w a v
  only : ∀ {a a' v v'}, p.Completes b.acts w a v → p.Completes b.acts w a' v' →
    a' = a ∧ v'.tables.undated = v.tables.undated ∧
      (∀ id, v'.accepted.lookup id = v.accepted.lookup id) ∧
      ∀ server, (v'.mailTo server).Perm (v.mailTo server)

theorem confluent_of_converges {p : Program α} {w : Scene} (hw : w.tables.IsWellFormed)
    (hp : Converges b w.tables.ground Set.univ (Same Set.univ) p) : b.Confluent w p := by
  refine ⟨⟨_, _, p.completes_alone b.acts_respond w⟩, fun hrun hrun' => ?_⟩
  obtain ⟨a, v₀, hp⟩ := hp w
  have hmeets := hp w ⟨hw, rfl⟩ fun _ _ => rfl
  obtain ⟨rfl, hv, halike⟩ := hmeets.completes hrun
  obtain ⟨rfl, hv', halike'⟩ := hmeets.completes hrun'
  have hsame := (isLook_alike w.tables.ground Set.univ).euclidean halike' halike
  exact ⟨rfl, undated_of_alike hv' hv hsame,
    fun id => (Sight.item.inj (hsame (.item id) trivial)).2.1, mailTo_of_alike hsame⟩

/-- The order in which the tasks of batches take their turns shows neither in the reports nor in what
is stored, kept in mind and sent: neither when jobs are driven side by side, which draws their
batches, nor when the items of batches that were drawn before are dispatched. -/
theorem confluent_batches (b : Behaviour) (e : Engine) {w : Scene} (hw : w.tables.IsWellFormed) :
    (∀ jobs : List Job, (jobs.map Job.id).Nodup →
      b.Confluent w (Program.forEach .free jobs fun j => (e.drive j).run)) ∧
    ∀ batches : List (Except String Engine.JobContext × List Item),
      ((batches.flatMap Prod.snd).map Item.id).Nodup →
      b.Confluent w (Program.forEach .free batches fun batch =>
        Program.forEach .permitted batch.2 (e.dispatchItem batch.1)) := by
  have hfiles : (w.tables.ground.files.map Prod.fst).Nodup := by
    rw [Tables.ground, List.map_map]
    exact hw.items_nodup
  exact ⟨fun jobs hjobs => confluent_of_converges hw (Converges.driveJobs e hfiles hjobs),
    fun batches hitems => confluent_of_converges hw (Converges.dispatchBatches e hitems)⟩

end Behaviour

namespace Rehearsal

/-- Two jobs of the campaign for its only recipient, one of them with two items. -/
def twoJobs : Tables :=
  let job : NewJob := ⟨campaign.id, .running, ["north"], .roundRobin, none, none⟩
  let item : NewItem := ⟨recipient.id, none, "north"⟩
  let first := (tables.serve ⟨0, 0⟩ (.createJob job [item, item])).2
  (first.serve ⟨0, 0⟩ (.createJob job [item])).2

theorem isWellFormed_twoJobs : twoJobs.IsWellFormed := (isWellFormed.serve _).serve _

/-- The items of each job, with what can be loaded for it. -/
def batches : List (Except String Engine.JobContext × List Item) :=
  [(.ok ⟨campaign, [], .empty⟩, twoJobs.items.take 2), (.error "down", twoJobs.items.drop 2)]

theorem nodup_batches : ((batches.flatMap Prod.snd).map Item.id).Nodup := by
  change ((twoJobs.items.take 2 ++ (twoJobs.items.drop 2 ++ [])).map Item.id).Nodup
  rw [List.append_nil, List.take_append_drop]
  exact isWellFormed_twoJobs.items_nodup

/-- Every message is taken, and the first attempt to record an item fails. -/
def stumbling : Behaviour where
  answer _ _ := .ok "m-1"
  failure?
    | .queueItem _ _, 0 => some (.database "down")
    | _, _ => none

end Rehearsal

open Rehearsal in
/-- Two jobs are driven side by side, or their items are dispatched. -/
theorem Behaviour.confluent_twoJobs :
    twoJobs.IsWellFormed ∧ (twoJobs.jobs.map Job.id).Nodup ∧ twoJobs.jobs.length = 2 ∧
      stumbling.Confluent ⟨twoJobs, [], []⟩
        (Program.forEach .free twoJobs.jobs fun j => (engine.drive j).run) ∧
      ((batches.flatMap Prod.snd).map Item.id).Nodup ∧
      stumbling.Confluent ⟨twoJobs, [], []⟩
        (Program.forEach .free batches fun batch =>
          Program.forEach .permitted batch.2 (engine.dispatchItem batch.1)) := by
  have hjobs := isWellFormed_twoJobs.jobs_nodup
  have hall := Behaviour.confluent_batches stumbling engine
    (w := ⟨twoJobs, [], []⟩) isWellFormed_twoJobs
  exact ⟨isWellFormed_twoJobs, hjobs, rfl, hall.1 _ hjobs, nodup_batches, hall.2 _ nodup_batches⟩

end Mailroom
