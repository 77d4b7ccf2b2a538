import Mailroom.Proofs.Jobs.Balance

/-!
Driving a job.  A job that is driven is running, and its counts are brought up to date when a batch
of its items has been worked on or nothing is left to do.  Main statement: whatever its items come
to, a job that was driven is balanced.
-/

namespace Mailroom

open Program (Asks Meets)

variable {e : Engine} {actor : Actor} {job : Uuid} {ids : List Uuid} {u v w : Scene} {α : Type}

/-- What an actor's requests make of a scene where it is known which items are a job's. -/
abbrev jobActs (actor : Actor) (job : Uuid) (ids : List Uuid) : Acts Scene :=
  Office.Known (IsKnown job ids) (Surroundings.mild.acts actor)

theorem jobActs_ok {call : StoreCall} {answer : call.Answer}
    (hacts : jobActs actor job ids (.store call) answer u v)
    (hcall : ∀ id remoteId, call ≠ .queueItem id remoteId) :
    ∃ reply now, answer = .ok reply ∧ reply = (u.tables.serve now call).1 ∧
      v.tables = (u.tables.serve now call).2 := by
  cases answer with
  | ok reply =>
      obtain ⟨now, hreply, htables⟩ := Surroundings.acts_ok hacts.2.2
      exact ⟨reply, now, rfl, hreply, htables⟩
  | error failure =>
      obtain ⟨id, remoteId, hqueue⟩ := hacts.2.2.1
      exact absurd hqueue (hcall id remoteId)

/-- A call to the store that cannot fail. -/
theorem meets_store {ε β : Type} [OfFailure ε] {call : StoreCall} {k : call.Reply → Service ε β}
    {rely : Scene → Scene → Prop} {P : Scene → Prop} {post : Except ε β → Scene → Prop}
    (hcall : ∀ id remoteId, call ≠ .queueItem id remoteId) (hP : Stable rely P) (hw : P w)
    (hnext : ∀ reply u v, P u → jobActs actor job ids (.store call) (.ok reply) u v →
      (k reply).run.Meets (jobActs actor job ids) rely (fun _ _ => True) post v) :
    (Service.store call >>= k).run.Meets (jobActs actor job ids) rely (fun _ _ => True) post w := by
  apply Meets.store hP hw
  · intro reply u v hu hacts
    exact ⟨trivial, hnext reply u v hu hacts⟩
  · intro failure u v hu hacts
    obtain ⟨reply, now, hok, -⟩ := jobActs_ok hacts hcall
    cases hok

/-- What steady steps keep holds on besides a job. -/
theorem calm_beside {rely pledge : Scene → Scene → Prop} {P : Scene → Prop}
    (hrely : Stable rely P) (hsteady : Stable (Steady job) P)
    (hpledge : ∀ u v, Steady job u v → pledge u v) :
    Calm (jobActs actor job ids) (.beside job ids) rely pledge P := by
  refine ⟨hrely, fun hacts hwithin hu => ?_⟩
  have hstep := steady_of_within hacts.1 hacts.2.2 hwithin
  exact ⟨hpledge _ _ hstep, hsteady hu hstep⟩

/-- The items of another job are others. -/
theorem not_owned_of_pending {around : Surroundings} {j : Job} {limit : Int} {items : List Item}
    {i : Item} (hj : j.id ≠ job) (hu : IsKnown job ids u)
    (hacts : around.acts actor (.store (.pendingItems j.id limit)) (.ok items) u v)
    (hi : i ∈ items) : i.id ∉ ids := by
  obtain ⟨now, hreply, -⟩ := Surroundings.acts_ok hacts
  obtain ⟨hmem, hjob, -⟩ := Tables.mem_pendingItems (hreply ▸ hi)
  exact fun hid => hj (hjob.symm.trans ((hu.2 i hmem).2 hid))

/-- Another job is driven without regard to the job. -/
theorem meets_drive_beside {j : Job} (hj : j.id ≠ job) :
    (e.drive j).run.Meets (jobActs actor job ids) (fun _ _ => True) (Steady job)
      (fun _ _ => True) w := by
  have hc : Calm (jobActs actor job ids) (.beside job ids) (fun _ _ => True) (Steady job)
      fun _ => True := calm_beside (stable_const _ _) (stable_const _ _) fun _ _ h => h
  exact hc.drive hj (fun _ _ => hj)
    (fun items x y hacts i hi => ⟨not_owned_of_pending hj hacts.1 hacts.2.2 hi, trivial⟩) trivial

def IsRunning (job : Uuid) (s : Scene) : Prop :=
  ∃ j, s.tables.job? job = some j ∧ j.status = .known .running

theorem IsRunning.stable : Stable (Steady job) (IsRunning job) := by
  rintro u v ⟨j, hj, hstatus⟩ hsteady
  exact ⟨j, hsteady.row.trans hj, hstatus⟩

/-- All may be written, but the job is not moved. -/
def Scope.driving (job : Uuid) : Scope where
  items _ _ := True
  mail _ := True
  stamps _ := True
  renews _ := True
  moves id _ _ := id ≠ job
  counts _ := True
  creates _ := True

theorem calm_driving :
    Calm (jobActs actor job ids) (.driving job) (Steady job) (fun _ _ => True)
      (IsRunning job) := by
  refine ⟨IsRunning.stable, fun hacts hwithin hu => ⟨trivial, ?_⟩⟩
  rcases hu with ⟨j, hj, hstatus⟩
  rcases acts_job? hacts.1.1.wellFormed hacts.2.2 hj with hv | ⟨call, now, rfl | rfl, hv⟩
  · exact ⟨j, hv, hstatus⟩
  · obtain ⟨-, rfl⟩ := (Tables.job?_eq_some_iff hacts.1.1.wellFormed).1 hj
    refine ⟨_, hv, ?_⟩
    rw [StoreCall.status_onJob hwithin fun _ _ h => h rfl]
    exact hstatus
  · exact absurd hwithin id

/-- A running job was counted, and these are its counts. -/
def IsCounted (job : Uuid) (stats : JobStats) (s : Scene) : Prop :=
  (∃ j, s.tables.job? job = some j ∧ j.status = .known .running ∧ j.stats = stats) ∧
    s.tables.statsOf job = stats

theorem IsCounted.stable (stats : JobStats) : Stable (Steady job) (IsCounted job stats) := by
  rintro u v ⟨⟨j, hj, hrow⟩, hstats⟩ hsteady
  exact ⟨⟨j, hsteady.row.trans hj, hrow⟩, hsteady.statsOf.trans hstats⟩

theorem IsCounted.balanced {stats : JobStats} (h : IsCounted job stats w) : Balanced job w := by
  rcases h with ⟨⟨j, hj, hstatus, hcounted⟩, hstats⟩
  refine ⟨fun k hk => ?_, fun k outcome hk hknown houtcome => ?_⟩
  · obtain rfl := Option.some.inj (hj.symm.trans hk)
    rw [hcounted, hstats]
  · obtain rfl := Option.some.inj (hj.symm.trans hk)
    obtain rfl : JobStatus.running = outcome := by simpa [hstatus] using hknown
    rcases houtcome with h | h <;> cases h

theorem isCounted_of_refresh {reply : JobStats} (hu : IsRunning job u)
    (hacts : jobActs actor job ids (.store (.refreshStats job)) (.ok reply) u v) :
    IsCounted job reply v := by
  rcases hu with ⟨j, hj, hstatus⟩
  obtain ⟨-, rfl⟩ := (Tables.job?_eq_some_iff hacts.1.1.wellFormed).1 hj
  obtain ⟨now, hreply, htables⟩ := Surroundings.acts_ok hacts.2.2
  have hrow := Tables.job?_serve_of_some now hacts.1.1.wellFormed (.refreshStats j.id) hj
  have hstats : v.tables.statsOf j.id = u.tables.statsOf j.id := by
    rw [htables]
    rfl
  refine ⟨⟨_, htables ▸ hrow, ?_, ?_⟩, hstats.trans hreply.symm⟩
  · simpa [StoreCall.onJob] using hstatus
  · rw [hreply]
    simp [StoreCall.onJob, Tables.serve, Tables.refreshStats]

/-- A job that was counted is balanced, and no more is done to it. -/
theorem meets_refresh {result : TickReport} (hw : IsRunning job w) :
    (do
      let _ ← Service.store (.refreshStats job)
      return result : Service String TickReport).run.Meets
      (jobActs actor job ids) (Steady job) (fun _ _ => True) (fun _ => Balanced job) w := by
  apply meets_store (by simp) IsRunning.stable hw
  intro stats u v hu hacts
  exact Meets.pure Balanced.stable (isCounted_of_refresh hu hacts).balanced

/-- A job that was counted is moved to the outcome of its counts. -/
theorem balanced_of_move {j : Job} {stats : JobStats} {sources : List JobStatus}
    {outcome : JobStatus} {moved : Option Job}
    (hacts : jobActs actor job ids (.store (.moveJob job sources outcome)) (.ok moved) u v)
    (hj : u.tables.job? job = some j) (hleaves : Tables.canLeave sources j = true)
    (hstats : u.tables.statsOf job = stats) (hcounted : j.stats = stats)
    (houtcome : stats.outcome = some outcome) : Balanced job v := by
  obtain ⟨-, hid⟩ := (Tables.job?_eq_some_iff hacts.1.1.wellFormed).1 hj
  obtain ⟨now, -, htables⟩ := Surroundings.acts_ok hacts.2.2
  have hmoved : v.tables.job? job = some (Tables.movedTo outcome now j) := by
    rw [htables, Tables.job?_serve_of_some now hacts.1.1.wellFormed _ hj]
    simp [StoreCall.onJob, hid, hleaves]
  have hafter : v.tables.statsOf job = stats := by
    rw [htables, ← hstats]
    simp only [Tables.serve, Tables.moveJob]
    split <;> rfl
  refine ⟨fun k hk => ?_, fun k other hk hknown _ => ?_⟩
  · obtain rfl := Option.some.inj (hmoved.symm.trans hk)
    exact hcounted.trans hafter.symm
  · obtain rfl := Option.some.inj (hmoved.symm.trans hk)
    obtain rfl : outcome = other := by simpa [Tables.movedTo] using hknown
    rw [hafter]
    exact houtcome

/-- A job that has nothing left to do gets the outcome of its counts. -/
theorem meets_finish {j : Job} (hw : IsRunning j.id w) :
    (Engine.finish j).run.Meets (jobActs actor j.id ids) (Steady j.id) (fun _ _ => True)
      (fun _ => Balanced j.id) w := by
  apply meets_store (by simp) IsRunning.stable hw
  intro stats u v hu hacts
  have hv := isCounted_of_refresh hu hacts
  split
  · exact Meets.pure Balanced.stable hv.balanced
  · rename_i outcome houtcome
    apply meets_store (by simp) (IsCounted.stable stats) hv
    intro moved x y hx hacts
    obtain ⟨⟨row, hrow, hstatus, hcounted⟩, hstats⟩ := hx
    have hleaves : Tables.canLeave [.running] row = true := by
      simp [Tables.canLeave, hstatus, Stored.value?]
    exact Meets.pure Balanced.stable
      (balanced_of_move hacts hrow hleaves hstats hcounted houtcome)

theorem meets_sendLeft {j : Job} {left : List Item} {recorded : TickReport}
    (hw : IsRunning j.id w) :
    (e.sendLeft j left recorded).run.Meets (jobActs actor j.id ids) (Steady j.id)
      (fun _ _ => True) (fun _ => Balanced j.id) w := by
  unfold Engine.sendLeft
  split
  · exact meets_refresh hw
  · refine Meets.lift ((calm_driving.meets (Engine.asks_loadContext j) hw).weaken
      fun context u hu => ?_)
    refine Meets.lift ((calm_driving.meets (Asks.forEach fun i _ => ?_) hu).weaken
      fun outcomes v hv => ?_)
    · exact Engine.asks_dispatchItem e context trivial trivial
    · exact meets_refresh hv

theorem meets_drive {j : Job} (hw : IsRunning j.id w) :
    (e.drive j).run.Meets (jobActs actor j.id ids) (Steady j.id) (fun _ _ => True)
      (fun _ => Balanced j.id) w := by
  apply meets_store (by simp) IsRunning.stable hw
  intro items u v hu hacts
  have hv := (calm_driving.keeps hacts trivial hu).2
  split
  · exact meets_finish hv
  · apply Meets.serviceRequest IsRunning.stable hv
    intro known x y hx hacts
    have hy := (calm_driving.keeps hacts trivial hx).2
    refine ⟨trivial, Meets.lift ?_⟩
    apply (calm_driving.recordKnown (fun _ _ _ => ⟨trivial, trivial⟩) hy).weaken
    intro out z hz
    exact meets_sendLeft hz.2

/-- By itself, a program of an actor ends in scenes of a kind. -/
abbrev Ensures (actor : Actor) (job : Uuid) (ids : List Uuid) (p : Program α)
    (post : α → Scene → Prop) (s : Scene) : Prop :=
  p.Meets (jobActs actor job ids) (fun _ _ => False) (fun _ _ => True) post s

theorem calm_alone {P : Scene → Prop} (hsteady : Stable (Steady job) P) :
    Calm (jobActs actor job ids) (.beside job ids) (fun _ _ => False) (fun _ _ => True) P :=
  calm_beside (stable_never P) hsteady fun _ _ _ => trivial

/-- A job that is listed as running is running. -/
theorem isRunning_of_listed {around : Surroundings} {jobs : List Job} (hu : u.tables.IsWellFormed)
    (hacts : around.acts actor (.store (.jobsIn .running)) (.ok jobs) u v)
    (hmem : job ∈ jobs.map Job.id) : IsRunning job v := by
  obtain ⟨now, hreply, htables⟩ := Surroundings.acts_ok hacts
  obtain ⟨j, hj, rfl⟩ := List.mem_map.1 hmem
  rw [hreply] at hj
  obtain ⟨hrow, hstatus⟩ := List.mem_filter.1 (List.mem_mergeSort.1 hj)
  refine ⟨j, ?_, by simpa using hstatus⟩
  rw [htables]
  exact (Tables.job?_eq_some_iff hu).2 ⟨hrow, rfl⟩

/-- Some jobs are driven side by side, and the job may be one of them. -/
theorem ensures_forEach_drive {jobs : List Job} (hnodup : (jobs.map Job.id).Nodup)
    (hbalanced : Balanced job w) (hrunning : job ∈ jobs.map Job.id → IsRunning job w) :
    Ensures actor job ids (.forEach .free jobs fun j => (e.drive j).run)
      (fun _ => Balanced job) w := by
  by_cases hmem : job ∈ jobs.map Job.id
  · have hrow := hrunning hmem
    obtain ⟨j, hj, rfl⟩ := List.mem_map.1 hmem
    refine Meets.forEach_key hnodup hj (fun _ _ h => absurd h id) (fun _ _ _ => trivial) ?_
      (meets_drive hrow) (stable_never _)
    intro k _ hne
    exact meets_drive_beside hne
  · refine Meets.forEach_quiet (fun _ _ _ => trivial) (stable_never _) Balanced.stable ?_ hbalanced
    intro j hj
    apply meets_drive_beside
    rintro rfl
    exact hmem (List.mem_map_of_mem hj)

theorem ensures_driveAll (hw : Balanced job w) :
    Ensures actor job ids e.driveAll.run (fun _ => Balanced job) w := by
  -- a job that is listed as running stays so until its turn has come
  let Q (jobs : List Job) (s : Scene) : Prop :=
    Balanced job s ∧ (job ∈ jobs.map Job.id → IsRunning job s)
  have hQ : ∀ jobs, Stable (Steady job) (Q jobs) := fun _ _ _ hx hstep =>
    ⟨Balanced.stable hx.1 hstep, fun h => IsRunning.stable (hx.2 h) hstep⟩
  refine (calm_alone Balanced.stable).driveAll (fun jobs => calm_alone (hQ jobs)) ?_ ?_ hw
  · intro jobs u v _ hv hacts
    have ht := hacts.1.1.wellFormed
    exact ⟨Surroundings.nodup_of_listed ht hacts.2.2, hv, isRunning_of_listed ht hacts.2.2⟩
  · intro jobs begun x hbegun hnodup hx
    apply ensures_forEach_drive hnodup hx.1
    exact fun hmem => hx.2 ((hbegun.map Job.id).subset hmem)

end Mailroom
