import Mailroom.Proofs.Jobs.Counters

/-!
Jobs that have failed.  The engine lets a job fail on the strength of counts by which no server has
anything of it, and as long as a job stays failed none of its items is sent.  Main statement:
whatever operators do meanwhile, the engine never asks to complete a job that has failed.
-/

namespace Mailroom

open Program (Asks Meets)

variable {e : Engine} {around : Surroundings} {actor : Actor} {effect : Effect}
  {answer : effect.Answer} {job : Uuid} {ids : List Uuid} {u v w : Scene} {s : Scope}

def HasFailed (job : Uuid) (s : Scene) : Prop := s.tables.statusOf job = some (.known .failed)

/-- A job has items, and none of them is recorded as taken by a server. -/
structure IsBarren (job : Uuid) (s : Scene) : Prop where
  nonempty : s.tables.itemsOf job ≠ []
  untaken : ∀ i ∈ s.tables.itemsOf job, i.status = .known .pending ∨ i.status = .known .failed

/-- A request to move a job from failed to completed. -/
def Effect.Redeems (job : Uuid) (effect : Effect) : Prop :=
  effect = .store (.moveJob job [.failed] .completed)

/-- A job is barren if it has failed, and nobody has asked to move it from there to completed. -/
structure Unredeemed (job : Uuid) (s : Scene) : Prop where
  barren : HasFailed job s → IsBarren job s
  history : ∀ v ∈ s.history, ¬ v.effect.Redeems job

theorem IsBarren.eq_failed {outcome : JobStatus} (hw : IsBarren job w)
    (houtcome : (w.tables.statsOf job).outcome = some outcome) : outcome = .failed := by
  have hpending := Tables.countOf_pending_of_outcome houtcome
  have hnone : ∀ status : ItemStatus, status ≠ .pending → status ≠ .failed →
      w.tables.countOf job status = 0 := by
    intro status hp hf
    apply List.countP_eq_zero.2
    intro i hi
    rcases hw.untaken i hi with h | h
    · simpa [h] using hp.symm
    · simpa [h] using hf.symm
  obtain ⟨i, hi⟩ := List.exists_mem_of_ne_nil _ hw.nonempty
  have hfailed : i.status = .known .failed := by
    refine (hw.untaken i hi).resolve_left fun h => ?_
    exact List.countP_eq_zero.1 hpending i hi (by simp [h])
  rw [Tables.eq_failed_iff_of_outcome houtcome]
  refine ⟨List.countP_pos_iff.2 ⟨i, hi, by simp [hfailed]⟩, ?_, ?_⟩
  · exact hnone .queued (by decide) (by decide)
  · exact hnone .sent (by decide) (by decide)

theorem isBarren_of_outcome (hw : InOrder w)
    (houtcome : (w.tables.statsOf job).outcome = some .failed) : IsBarren job w := by
  obtain ⟨hfailed, hqueued, hsent⟩ := (Tables.eq_failed_iff_of_outcome houtcome).1 rfl
  obtain ⟨i, hi, -⟩ := List.countP_pos_iff.1 hfailed
  refine ⟨List.ne_nil_of_mem hi, fun k hk => ?_⟩
  obtain ⟨status, hstatus⟩ := hw.known k (Tables.mem_itemsOf.1 hk).1
  cases status with
  | pending => exact .inl hstatus
  | failed => exact .inr hstatus
  | queued => exact absurd (by simp [hstatus]) (List.countP_eq_zero.1 hqueued k hk)
  | sent => exact absurd (by simp [hstatus]) (List.countP_eq_zero.1 hsent k hk)

/-- An item that nobody took is taken only if that is recorded. -/
theorem StoreCall.untaken_onItem {now : Timestamp} {c : StoreCall} {i : Item}
    (hi : i.status = .known .pending ∨ i.status = .known .failed)
    (hqueue : ∀ remoteId, c ≠ .queueItem i.id remoteId) :
    (c.onItem now i).status = .known .pending ∨ (c.onItem now i).status = .known .failed := by
  cases c with
  | checkItems ids =>
      simp only [onItem]
      split <;> exact hi
  | queueItem id remoteId =>
      have hne : i.id ≠ id := fun h => hqueue remoteId (h ▸ rfl)
      simpa [onItem, Tables.isItemIn, hne] using hi
  | failItem id source error =>
      simp only [onItem]
      split
      · exact .inr rfl
      · exact hi
  | confirmItem id =>
      have hnot : Tables.isItemIn id .queued i = false := by
        rcases hi with h | h <;> simp [Tables.isItemIn, h]
      simpa [onItem, hnot] using hi
  | resetFailed id =>
      simp only [onItem]
      split
      · exact .inl rfl
      · exact hi
  | _ => exact hi

theorem IsBarren.of_acts (hw : IsBarren job u) (hu : u.tables.IsWellFormed)
    (hacts : around.acts actor effect answer u v) (hwithin : effect.Within s)
    (hqueue : ∀ i ∈ u.tables.itemsOf job, ∀ remoteId,
      effect ≠ .store (.queueItem i.id remoteId)) : IsBarren job v := by
  rcases Surroundings.acts_tables hacts with htables | ⟨call, now, rfl | rfl, htables⟩
  · exact ⟨htables ▸ hw.nonempty, htables ▸ hw.untaken⟩
  · constructor
    · rw [htables, Tables.itemsOf_serve hu]
      simp [hw.nonempty]
    · intro i hi
      rw [htables, Tables.itemsOf_serve hu, List.mem_append, List.mem_map] at hi
      rcases hi with ⟨k, hk, rfl⟩ | hi
      · apply StoreCall.untaken_onItem (hw.untaken k hk)
        exact fun remoteId h => hqueue k hk remoteId (congrArg _ h)
      · exact .inl (Tables.id_of_mem_callItems (List.mem_filter.1 hi).1).2.1
  · exact absurd hwithin id

/-- A job fails only if it is moved there or made so. -/
theorem HasFailed.of_acts (hv : HasFailed job v) (hu : u.tables.IsWellFormed)
    (hacts : around.acts actor effect answer u v) (hwithin : effect.Within s) :
    HasFailed job u ∨ (∃ sources, effect = .store (.moveJob job sources .failed)) ∨
      ∃ n items, effect = .store (.createJob n items) ∧ n.status = .failed := by
  rcases Surroundings.acts_tables hacts with htables | ⟨call, now, rfl | rfl, htables⟩
  · exact .inl (by rwa [HasFailed, ← htables])
  · obtain ⟨j, hj, hstatus⟩ := Option.map_eq_some_iff.1 hv
    rw [htables] at hj
    rcases Tables.job?_serve_cases hu call hj with ⟨k, hk, rfl⟩ | ⟨-, hnew⟩
    · obtain ⟨-, rfl⟩ := (Tables.job?_eq_some_iff hu).1 hk
      rcases call.onJob_cases u.tables now k with ⟨sources, target, rfl, -, hmoved⟩ | ⟨hsame, -⟩
      · obtain rfl : target = .failed := by simpa [hmoved, Tables.movedTo] using hstatus
        exact .inr (.inl ⟨sources, rfl⟩)
      · exact .inl (by rw [HasFailed, Tables.statusOf, hk, ← hstatus, hsame]; rfl)
    · cases call with
      | createJob n items =>
          obtain rfl := List.mem_singleton.1 hnew
          exact .inr (.inr ⟨n, items, rfl, by simpa [Tables.createJob] using hstatus⟩)
      | _ => cases hnew
  · exact absurd hwithin id

/-- All may be written, but no item of a job is recorded as taken, and neither is the job moved to
an outcome nor made in one. -/
def Scope.barring (job : Uuid) (ids : List Uuid) : Scope where
  items id source := source = .pending → id ∉ ids
  mail _ := True
  stamps _ := True
  renews _ := True
  moves id _ target := id = job → ¬ target.IsOutcome
  counts _ := True
  creates status := ¬ status.IsOutcome

theorem Scope.moves_barring {id : Uuid} (hid : id ≠ job) {sources : List JobStatus}
    {target : JobStatus} : (Scope.barring job ids).moves id sources target :=
  fun h => absurd h hid

/-- A step by which a job does not fail, a barren job stays barren, and no job is redeemed. -/
structure Harmless (job : Uuid) (u v : Scene) : Prop where
  failed : HasFailed job v → HasFailed job u
  barren : IsBarren job u → IsBarren job v
  history : ∃ event, v.history = event :: u.history ∧ ¬ event.effect.Redeems job

theorem Unredeemed.stable : Stable (Harmless job) (Unredeemed job) := by
  intro u v hu hstep
  refine ⟨fun hv => hstep.barren (hu.barren (hstep.failed hv)), ?_⟩
  obtain ⟨event, hhistory, hspares⟩ := hstep.history
  rw [hhistory]
  exact List.forall_mem_cons.2 ⟨hspares, hu.history⟩

theorem IsBarren.stable : Stable (Harmless job) (IsBarren job) :=
  fun _ _ hu hstep => hstep.barren hu

theorem not_hasFailed_stable : Stable (Harmless job) fun s => ¬ HasFailed job s :=
  fun _ _ hu hstep hv => hu (hstep.failed hv)

theorem not_hasFailed_of_within (hu : u.tables.IsWellFormed)
    (hacts : around.acts actor effect answer u v) (hwithin : effect.Within (.barring job ids))
    (hsound : ¬ HasFailed job u) : ¬ HasFailed job v := by
  intro hv
  rcases hv.of_acts hu hacts hwithin with hfailed | ⟨sources, rfl⟩ | ⟨n, items, rfl, hstatus⟩
  · exact hsound hfailed
  · exact hwithin rfl (.inr rfl)
  · exact hwithin (.inr hstatus)

theorem not_redeems_of_within (hwithin : effect.Within (.barring job ids)) :
    ¬ effect.Redeems job := by
  rintro rfl
  exact hwithin rfl (.inl rfl)

theorem harmless_of_within (hu : IsKnown job ids u) (hacts : around.acts actor effect answer u v)
    (hwithin : effect.Within (.barring job ids)) : Harmless job u v := by
  have ht := hu.1.wellFormed
  refine ⟨?_, fun hbarren => hbarren.of_acts ht hacts hwithin ?_, _,
    Surroundings.acts_history hacts, not_redeems_of_within hwithin⟩
  · exact not_imp_not.1 (not_hasFailed_of_within ht hacts hwithin)
  · rintro i hi remoteId rfl
    obtain ⟨hi, hjob⟩ := Tables.mem_itemsOf.1 hi
    exact hwithin rfl ((hu.2 i hi).1 hjob)

/-- A job is moved, to failed only if it is barren, and not from there to completed. -/
theorem Unredeemed.of_move {sources : List JobStatus} {target : JobStatus}
    {answer : (Effect.store (.moveJob job sources target)).Answer} (hu : Unredeemed job u)
    (ht : u.tables.IsWellFormed)
    (hacts : around.acts actor (.store (.moveJob job sources target)) answer u v)
    (hbarren : target = .failed → IsBarren job u)
    (hsources : sources = [.failed] → target ≠ .completed) : Unredeemed job v := by
  have hwithin : (Effect.store (.moveJob job sources target)).Within .all := trivial
  constructor
  · intro hv
    have hbefore : IsBarren job u := by
      rcases hv.of_acts ht hacts hwithin with hfailed | ⟨_, hmove⟩ | ⟨_, _, hmade, -⟩
      · exact hu.barren hfailed
      · cases hmove
        exact hbarren rfl
      · cases hmade
    exact hbefore.of_acts ht hacts hwithin fun _ _ _ h => by cases h
  · rw [Surroundings.acts_history hacts]
    refine List.forall_mem_cons.2 ⟨fun hredeems => ?_, hu.history⟩
    cases hredeems
    exact hsources rfl rfl

/-- What the engine makes of a scene where it is known which items are a job's. -/
abbrev knownTurns (around : Surroundings) (job : Uuid) (ids : List Uuid) : Acts Scene :=
  Office.Known (IsKnown job ids) (around.acts .engine)

/-- Among harmless steps, a program leaves a job unredeemed all along. -/
abbrev Spares (around : Surroundings) (job : Uuid) (ids : List Uuid) {α : Type} (p : Program α)
    (w : Scene) : Prop :=
  p.Meets (knownTurns around job ids) (Harmless job)
    (fun u v => Unredeemed job u → Unredeemed job v) (fun _ => Unredeemed job) w

theorem calm_barring {P : Scene → Prop} (hP : Stable (Harmless job) P) :
    Calm (knownTurns around job ids) (.barring job ids) (Harmless job)
      (fun u v => Unredeemed job u → Unredeemed job v) P := by
  refine ⟨hP, fun hacts hwithin hu => ?_⟩
  have hstep := harmless_of_within hacts.1 hacts.2.2 hwithin
  exact ⟨fun hunredeemed => Unredeemed.stable hunredeemed hstep, hP hu hstep⟩

/-- A job has not failed, and it was never redeemed. -/
def IsSound (job : Uuid) (s : Scene) : Prop := Unredeemed job s ∧ ¬ HasFailed job s

theorem IsSound.stable : Stable (Harmless job) (IsSound job) :=
  Unredeemed.stable.and not_hasFailed_stable

/-- As long as a job has not failed, its items may be worked on. -/
theorem calm_sound :
    Calm (knownTurns around job ids) (.barring job []) (Harmless job)
      (fun u v => Unredeemed job u → Unredeemed job v) (IsSound job) := by
  refine ⟨IsSound.stable, fun {effect answer u v} hacts hwithin hu => ?_⟩
  have hsound := not_hasFailed_of_within hacts.1.1.wellFormed hacts.2.2 hwithin hu.2
  have hv : Unredeemed job v := by
    refine ⟨fun hfailed => absurd hfailed hsound, ?_⟩
    rw [Surroundings.acts_history hacts.2.2]
    exact List.forall_mem_cons.2 ⟨not_redeems_of_within hwithin, hu.1.history⟩
  exact ⟨fun _ => hv, hv, hsound⟩

theorem spares_of_asks {α : Type} {p : Program α} (hp : Asks (Effect.Within (.barring job ids)) p)
    (hw : Unredeemed job w) : Spares around job ids p w :=
  (calm_barring Unredeemed.stable).meets hp hw

/-- What the counts of a job say of it: it has not failed if they call it completed, and it is
barren if they call it failed. -/
structure Told (job : Uuid) (stats : JobStats) (s : Scene) : Prop where
  unredeemed : Unredeemed job s
  completed : stats.outcome = some .completed → ¬ HasFailed job s
  failed : stats.outcome = some .failed → IsBarren job s

theorem Told.stable (stats : JobStats) : Stable (Harmless job) (Told job stats) := by
  intro u v hu hstep
  refine ⟨Unredeemed.stable hu.unredeemed hstep, fun h => ?_, fun h => ?_⟩
  · exact not_hasFailed_stable (hu.completed h) hstep
  · exact IsBarren.stable (hu.failed h) hstep

theorem told_of_refresh {stats : JobStats} (hu : Unredeemed job u)
    (hacts : knownTurns around job ids (.store (.refreshStats job)) (.ok stats) u v) :
    Told job stats v := by
  have hwithin : (Effect.store (.refreshStats job)).Within (.barring job ids) := trivial
  have hstep := harmless_of_within hacts.1 hacts.2.2 hwithin
  obtain ⟨now, hreply, -⟩ := Surroundings.acts_ok hacts.2.2
  have hstats : stats = u.tables.statsOf job := hreply
  refine Told.stable stats ⟨hu, fun houtcome hfailed => ?_, fun houtcome => ?_⟩ hstep
  · have hsame := (hu.barren hfailed).eq_failed (hstats ▸ houtcome)
    cases hsame
  · exact isBarren_of_outcome hacts.1.1 (hstats ▸ houtcome)

/-- A job is moved to the outcome of its counts, but not from failed to completed. -/
theorem spares_move {α : Type} {stats : JobStats} {sources : List JobStatus} {outcome : JobStatus}
    {k : Option Job → Service String α} (hw : Told job stats w)
    (houtcome : stats.outcome = some outcome)
    (hsources : sources = [.failed] → outcome ≠ .completed)
    (hk : ∀ moved v, Unredeemed job v → Spares around job ids (k moved).run v) :
    Spares around job ids (Service.store (.moveJob job sources outcome) >>= k).run w := by
  have hmoved : ∀ {answer u v}, Told job stats u →
      knownTurns around job ids (.store (.moveJob job sources outcome)) answer u v →
        Unredeemed job v := by
    intro answer u v hu hacts
    apply hu.unredeemed.of_move hacts.1.1.wellFormed hacts.2.2 _ hsources
    rintro rfl
    exact hu.failed houtcome
  apply Meets.store (Told.stable stats) hw
  · intro moved u v hu hacts
    exact ⟨fun _ => hmoved hu hacts, hk moved v (hmoved hu hacts)⟩
  · intro failure u v hu hacts
    exact ⟨fun _ => hmoved hu hacts, Meets.pure Unredeemed.stable (hmoved hu hacts)⟩

theorem spares_finish {j : Job} (hw : Unredeemed j.id w) :
    Spares around j.id ids (Engine.finish j).run w := by
  refine (calm_barring Unredeemed.stable).store trivial hw ?_ ?_
  · intro stats u v hu hv hacts
    split
    · exact Meets.pure Unredeemed.stable hv
    · rename_i outcome houtcome
      apply spares_move (told_of_refresh hu hacts) houtcome (by simp)
      intro moved x hx
      exact Meets.pure Unredeemed.stable hx
  · intro failure v hv
    exact Meets.pure Unredeemed.stable hv

theorem spares_drive {j : Job} (hw : IsSound j.id w) :
    Spares around j.id ids (e.drive j).run w := by
  refine calm_sound.store trivial hw ?_ ?_
  · intro items u v _ hv _
    split
    · exact spares_finish hv.1
    · have hitems : ∀ i ∈ items, (Scope.barring j.id []).items i.id .pending ∧
          (Scope.barring j.id []).mail i.id := by
        intro i _
        exact ⟨fun _ => List.not_mem_nil, trivial⟩
      apply (calm_sound.driveItems trivial hitems hv).weaken
      intro _ x hx
      exact hx.1
  · intro failure v hv
    exact Meets.pure Unredeemed.stable hv.1

/-- Another job is driven without harm to the job. -/
theorem harmless_drive {j : Job} (hj : j.id ≠ job) :
    (e.drive j).run.Meets (knownTurns around job ids) (fun _ _ => True) (Harmless job)
      (fun _ _ => True) w := by
  have hc : Calm (knownTurns around job ids) (.barring job ids) (fun _ _ => True) (Harmless job)
      fun _ => True :=
    ⟨stable_const _ _, fun hacts hwithin _ =>
      ⟨harmless_of_within hacts.1 hacts.2.2 hwithin, trivial⟩⟩
  refine hc.drive trivial (fun _ _ => Scope.moves_barring hj) ?_ trivial
  intro items u v hacts i hi
  exact ⟨fun _ => not_owned_of_pending hj hacts.1 hacts.2.2 hi, trivial⟩

theorem spares_forEach_drive {jobs : List Job} (hnodup : (jobs.map Job.id).Nodup)
    (hw : Unredeemed job w) (hsound : job ∈ jobs.map Job.id → ¬ HasFailed job w) :
    Spares around job ids (.forEach .free jobs fun j => (e.drive j).run) w := by
  have hkeeps : ∀ u v, Harmless job u v → Unredeemed job u → Unredeemed job v :=
    fun _ _ hstep hu => Unredeemed.stable hu hstep
  by_cases hmem : job ∈ jobs.map Job.id
  · have hdriven : IsSound job w := ⟨hw, hsound hmem⟩
    obtain ⟨j, hj, rfl⟩ := List.mem_map.1 hmem
    refine Meets.forEach_key hnodup hj (fun _ _ h => h) hkeeps ?_ (spares_drive hdriven)
      Unredeemed.stable
    intro k _ hne
    exact harmless_drive hne
  · refine Meets.forEach_quiet hkeeps Unredeemed.stable Unredeemed.stable ?_ hw
    intro j hj
    apply harmless_drive
    rintro rfl
    exact hmem (List.mem_map_of_mem hj)

theorem spares_driveAll (hw : Unredeemed job w) : Spares around job ids e.driveAll.run w := by
  -- a job that is listed as running does not fail before its turn has come
  let Q (jobs : List Job) (s : Scene) : Prop :=
    Unredeemed job s ∧ (job ∈ jobs.map Job.id → ¬ HasFailed job s)
  have hQ : ∀ jobs, Stable (Harmless job) (Q jobs) := fun _ _ _ hx hstep =>
    ⟨Unredeemed.stable hx.1 hstep, fun h => not_hasFailed_stable (hx.2 h) hstep⟩
  refine (calm_barring Unredeemed.stable).driveAll (fun jobs => calm_barring (hQ jobs)) ?_ ?_ hw
  · intro jobs u v _ hv hacts
    have ht := hacts.1.1.wellFormed
    refine ⟨Surroundings.nodup_of_listed ht hacts.2.2, hv, fun hmem hfailed => ?_⟩
    obtain ⟨j, hj, hstatus⟩ := isRunning_of_listed ht hacts.2.2 hmem
    rw [HasFailed, Tables.statusOf, hj] at hfailed
    simp [hstatus] at hfailed
  · intro jobs begun x hbegun hnodup hx
    apply spares_forEach_drive hnodup hx.1
    exact fun hmem => hx.2 ((hbegun.map Job.id).subset hmem)

/-- The counts of a job that has failed do not call it completed, so that no review redeems it. -/
theorem spares_reevaluate (id : Uuid) (hw : Unredeemed job w) :
    Spares around job ids (Engine.reevaluate id).run w := by
  by_cases hid : id = job
  · subst hid
    refine (calm_barring Unredeemed.stable).store trivial hw ?_ ?_
    · intro stats u v hu _ hacts
      refine (calm_barring (Told.stable stats)).store trivial (told_of_refresh hu hacts) ?_ ?_
      · intro row x y hx hy hacts
        split
        · exact Meets.pure Unredeemed.stable hy.unredeemed
        · rename_i current outcome hrevised
          obtain ⟨j, hj, hrevised⟩ := Option.bind_eq_some_iff.1 hrevised
          obtain ⟨hstatus, houtcome, -⟩ := Engine.of_revisedOutcome?_eq_some hrevised
          apply spares_move hy houtcome
          · -- the row was read after the count, which still holds of it
            rintro hfailed rfl
            obtain rfl := List.singleton_inj.1 hfailed
            obtain ⟨now, hreply, -⟩ := Surroundings.acts_ok hacts.2.2
            have hrow : x.tables.job? id = some j := hreply.symm.trans hj
            apply hx.completed houtcome
            rw [HasFailed, Tables.statusOf, hrow, ← hstatus]
            rfl
          · intro moved z hz
            exact Meets.pure Unredeemed.stable hz
      · intro failure x hx
        exact Meets.pure Unredeemed.stable hx.unredeemed
    · intro failure v hv
      exact Meets.pure Unredeemed.stable hv
  · exact spares_of_asks (Engine.asks_reevaluate trivial fun _ _ _ _ => Scope.moves_barring hid) hw

theorem spares_reevaluateAll (jobs : List Uuid) (hw : Unredeemed job w) :
    Spares around job ids (Engine.reevaluateAll jobs) w := by
  induction jobs generalizing w with
  | nil => exact Meets.pure Unredeemed.stable hw
  | cons id rest ih =>
      apply Meets.bind
      apply (spares_reevaluate id hw).weaken
      intro changed u hu
      apply Meets.bind
      apply (ih hu).weaken
      intro more v hv
      exact Meets.pure Unredeemed.stable hv

theorem spares_reconcile (hw : Unredeemed job w) : Spares around job ids e.reconcile.run w := by
  have hc : Calm (knownTurns around job ids) (.barring job ids) (Harmless job)
      (fun u v => Unredeemed job u → Unredeemed job v) (Unredeemed job) :=
    calm_barring Unredeemed.stable
  have hpure : ∀ {α : Type} (result : Except String α) {v : Scene}, Unredeemed job v →
      Spares around job ids (pure result) v := fun _ _ hv => Meets.pure Unredeemed.stable hv
  refine hc.store trivial hw ?_ fun _ _ => hpure _
  intro items u v _ hv _
  split
  · exact hpure _ hv
  · refine hc.store (fun _ _ => trivial) hv ?_ fun _ _ => hpure _
    intro _ x y _ hy _
    have hchecked : Asks (Effect.Within (.barring job ids))
        (.forEach .permitted items e.reconcileItem) :=
      Asks.forEach fun i _ => Engine.asks_reconcileItem e nofun
    apply Meets.lift
    apply (hc.meets hchecked hy).weaken
    intro moved z hz
    apply Meets.lift
    apply (spares_reevaluateAll _ hz).weaken
    intro finished z' hz'
    exact hpure _ hz'

theorem spares_tick (hw : Unredeemed job w) : Spares around job ids e.tick w := by
  have hpromote : Asks (Effect.Within (.barring job ids)) Engine.promote.run :=
    Engine.asks_promote fun _ _ => by decide
  exact Meets.tick Unredeemed.stable (fun _ => spares_of_asks hpromote)
    (fun _ => spares_reconcile) (fun _ => spares_driveAll) hw

/-- Operators neither let a job fail nor complete it. -/
theorem OperatorCall.asks_barring (call : OperatorCall) :
    Asks (Effect.Within (.barring job ids)) call.program := by
  have hscheduled : ¬ JobStatus.scheduled.IsOutcome := by decide
  have hrunning : ¬ JobStatus.running.IsOutcome := by decide
  cases call with
  | create r registry standard => exact r.asks_create registry standard hscheduled hrunning
  | pause id => exact JobControl.Move.asks_make fun _ => by decide
  | resume id => exact JobControl.Move.asks_make fun _ => hrunning
  | cancel id => exact JobControl.Move.asks_make fun _ => by decide
  | retry id action => exact JobControl.asks_retry (fun _ => trivial) (fun _ => hrunning) trivial

namespace Office

variable {t : Tables} {o : Office}

/-- Whatever operators do meanwhile, a job that has failed stays unredeemed. -/
theorem Reachable.unredeemed (ht : Sequential.HasNoJobs t) (ho : Reachable e around t o)
    (job : Uuid) : Unredeemed job o.scene := by
  have hopening : InOrder (opening t).scene := inOrder_of_empty ht.1 ht.2
  obtain ⟨ids, howns⟩ := exists_owns (ho.inOrder hopening).wellFormed job
  have hstart : Unredeemed job (opening t).scene := by
    refine ⟨fun hfailed => ?_, by simp [opening]⟩
    have hnone : t.job? job = none := by simp [Tables.job?, ht.1]
    rw [HasFailed, Tables.statusOf, opening, hnone] at hfailed
    cases hfailed
  have hback : ∀ o o', Reachable e around t o → Step e around o o' → IsKnown job ids o'.scene →
      IsKnown job ids o.scene := by
    intro o o' ho hstep hknown
    refine ⟨ho.inOrder hopening, ?_⟩
    rcases hstep.scene_eq_or_acts with hscene | ⟨actor, effect, answer, hacts⟩
    · rw [← hscene]
      exact hknown.2
    · exact hknown.2.back (ho.inOrder hopening).wellFormed hacts
  have horderly := ho.orderly ⟨hstart, hstart⟩ OperatorCall.asks_barring hback
    (fun _ _ _ _ _ _ hwithin hu _ hacts => harmless_of_within hu hacts hwithin)
    Unredeemed.stable Unredeemed.stable (fun _ _ hs => spares_tick hs) ⟨ho.inOrder hopening, howns⟩
  exact horderly.holds

end Office

end Mailroom
