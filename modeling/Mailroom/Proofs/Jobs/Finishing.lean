import Mailroom.Proofs.Concurrency.Cues
import Mailroom.Proofs.Delivery.Record
import Mailroom.Proofs.Jobs.Balance
import Mailroom.Proofs.Jobs.Moves

/-!
When jobs finish.  The engine finishes a running job on the strength of a count, and operators may
act between the count and the move.  Main statements: no item of the job was pending when it was
counted, and an item that is pending when the job finishes was renewed by an operator in between.
-/

namespace Mailroom

open Program (Asks Meets)

variable {e : Engine} {around : Surroundings} {job : Uuid} {w : Scene}

/-- The engine counts the items of a job that exists, and none of them is pending. -/
structure Event.Reckons (job : Uuid) (v : Event) : Prop where
  actor : v.actor = .engine
  effect : v.effect = .store (.refreshStats job)
  present : (v.before.job? job).isSome = true
  settled : v.after.countOf job .pending = 0

/-- The engine has counted a job before it moves it out of running. -/
def History.IsReckoned (job : Uuid) : List Event → Prop
  | [] => True
  | v :: earlier =>
      (v.actor = .engine → (∃ target, v.effect = .store (.moveJob job [.running] target)) →
        ∃ w ∈ earlier, w.Reckons job) ∧ IsReckoned job earlier

theorem History.IsReckoned.of_append {v : Event} {later earlier : List Event}
    (h : IsReckoned job (later ++ v :: earlier)) : IsReckoned job (v :: earlier) := by
  induction later with
  | nil => exact h
  | cons w later ih => exact ih h.2

/-- One more event happens, and a job does not vanish. -/
structure Grows (job : Uuid) (u v : Scene) : Prop where
  history : ∃ event, v.history = event :: u.history
  present : IsPresent job u → IsPresent job v

/-- A step by which the history stays reckoned. -/
structure Reckoned (job : Uuid) (u v : Scene) : Prop extends Grows job u v where
  reckoned : History.IsReckoned job u.history → History.IsReckoned job v.history

theorem grows_of_acts {actor : Actor} {effect : Effect} {answer : effect.Answer} {u v : Scene}
    (hu : u.tables.IsWellFormed) (hacts : around.acts actor effect answer u v) : Grows job u v :=
  ⟨⟨_, Surroundings.acts_history hacts⟩, fun hpresent => hpresent.next hu hacts⟩

theorem reckoned_of_acts {actor : Actor} {effect : Effect} {answer : effect.Answer} {u v : Scene}
    (hu : u.tables.IsWellFormed) (hacts : around.acts actor effect answer u v)
    (hmove : actor = .engine → (∃ target, effect = .store (.moveJob job [.running] target)) →
      ∃ w ∈ u.history, w.Reckons job) : Reckoned job u v := by
  refine ⟨grows_of_acts hu hacts, fun hreckoned => ?_⟩
  rw [Surroundings.acts_history hacts]
  exact ⟨hmove, hreckoned⟩

theorem IsPresent.stable : Stable (Grows job) (IsPresent job) :=
  fun _ _ hu hstep => hstep.present hu

/-- A job was counted with none of its items pending. -/
def WasCounted (job : Uuid) (s : Scene) : Prop := ∃ w ∈ s.history, w.Reckons job

theorem WasCounted.stable : Stable (Grows job) (WasCounted job) := by
  rintro u v ⟨w, hw, hreckons⟩ hstep
  obtain ⟨event, hhistory⟩ := hstep.history
  exact ⟨w, hhistory ▸ List.mem_cons_of_mem event hw, hreckons⟩

/-- All may be written, but a job is not moved out of running. -/
def Scope.unfinished (job : Uuid) : Scope where
  items _ _ := True
  mail _ := True
  stamps _ := True
  renews _ := True
  moves id sources _ := id = job → sources ≠ [.running]
  counts _ := True
  creates _ := True

/-- What the engine does among operators when the tables are in order. -/
abbrev engineTurns (around : Surroundings) : Acts Scene :=
  Office.Known (fun s => s.tables.IsWellFormed) (around.acts .engine)

/-- A program counts a job before it finishes it. -/
abbrev CountsFirst (around : Surroundings) (job : Uuid) {α : Type} (p : Program α)
    (w : Scene) : Prop :=
  p.Meets (engineTurns around) (Grows job) (Reckoned job) (fun _ _ => True) w

theorem calm_unfinished {P : Scene → Prop} (hP : Stable (Grows job) P) :
    Calm (engineTurns around) (.unfinished job) (Grows job) (Reckoned job) P := by
  refine ⟨hP, ?_⟩
  intro effect answer u v hacts hwithin hu
  have hreckoned : Reckoned job u v := by
    apply reckoned_of_acts hacts.1 hacts.2.2
    rintro - ⟨target, rfl⟩
    exact absurd rfl (hwithin rfl)
  exact ⟨hreckoned, hP hu hreckoned.toGrows⟩

theorem countsFirst_of_asks {α : Type} {p : Program α}
    (hp : Asks (Effect.Within (.unfinished job)) p) : CountsFirst around job p w :=
  (calm_unfinished (stable_const _ True)).meets hp trivial

theorem wasCounted_of_refresh {stats : JobStats} {outcome : JobStatus} {u v : Scene}
    (hu : IsPresent job u)
    (hacts : engineTurns around (.store (.refreshStats job)) (.ok stats) u v)
    (houtcome : stats.outcome = some outcome) : WasCounted job v := by
  obtain ⟨now, hreply, htables⟩ := Surroundings.acts_ok hacts.2.2
  have hsame : v.tables.countOf job .pending = u.tables.countOf job .pending := by
    rw [htables]
    rfl
  have hstats : stats = u.tables.statsOf job := hreply
  rw [hstats] at houtcome
  have hsettled := Tables.countOf_pending_of_outcome houtcome
  refine ⟨⟨.engine, .store (.refreshStats job), .ok stats, u.tables, v.tables⟩, ?_,
    ⟨rfl, rfl, hu, hsame.trans hsettled⟩⟩
  rw [Surroundings.acts_history hacts.2.2]
  exact List.mem_cons_self

theorem countsFirst_finish {j : Job} (hw : j.id = job → IsPresent job w) :
    CountsFirst around job (Engine.finish j).run w := by
  by_cases hid : j.id = job
  · subst hid
    refine (calm_unfinished IsPresent.stable).store trivial (hw rfl) ?_ ?_
    · intro stats u v hu _ hacts
      split
      · exact Meets.pure (stable_const _ _) trivial
      · rename_i outcome houtcome
        have hcounted : WasCounted j.id v := wasCounted_of_refresh hu hacts houtcome
        refine Meets.store WasCounted.stable hcounted ?_ ?_
        · intro moved x y hx hmoves
          exact ⟨reckoned_of_acts hmoves.1 hmoves.2.2 fun _ _ => hx,
            Meets.pure (stable_const _ _) trivial⟩
        · intro failure x y hx hmoves
          exact ⟨reckoned_of_acts hmoves.1 hmoves.2.2 fun _ _ => hx,
            Meets.pure (stable_const _ _) trivial⟩
    · intro failure v _
      exact Meets.pure (stable_const _ _) trivial
  · exact countsFirst_of_asks (Engine.asks_finish trivial fun _ _ heq => absurd heq hid)

theorem countsFirst_drive {j : Job} (hw : j.id = job → IsPresent job w) :
    CountsFirst around job (e.drive j).run w := by
  have hstable : Stable (Grows job) fun s => j.id = job → IsPresent job s :=
    fun _ _ hu hstep hid => IsPresent.stable (hu hid) hstep
  refine (calm_unfinished hstable).store trivial hw ?_ ?_
  · intro items u v _ hv _
    split
    · exact countsFirst_finish hv
    · exact ((calm_unfinished hstable).driveItems trivial (fun _ _ => ⟨trivial, trivial⟩) hv).weaken
        fun _ _ _ => trivial
  · intro failure v _
    exact Meets.pure (stable_const _ _) trivial

theorem countsFirst_forEach_drive {jobs : List Job}
    (hw : ∀ j ∈ jobs, j.id = job → IsPresent job w) :
    CountsFirst around job (.forEach .free jobs fun j => (e.drive j).run) w := by
  refine Meets.forEach (fun _ => Reckoned job) (fun _ _ _ => True) (fun _ => True)
    (fun _ _ _ h => h) (fun i => ?_) trivial (stable_const _ _) (fun _ => stable_const _ _)
    (fun _ _ _ _ => trivial) fun _ => stable_const _ _
  -- the other tasks do no more than what anyone may rely on
  refine (countsFirst_drive (hw _ (List.get_mem jobs i))).mono ?_ (fun _ _ h => h) fun _ _ h => h
  rintro u v (h | ⟨k, -, h⟩)
  · exact h
  · exact h.toGrows

/-- The jobs that are driven side by side are all there. -/
theorem countsFirst_driveAll : CountsFirst around job e.driveAll.run w := by
  let listed (jobs : List Job) (s : Scene) : Prop := ∀ j ∈ jobs, j.id = job → IsPresent job s
  have hstable : ∀ jobs, Stable (Grows job) (listed jobs) :=
    fun _ _ _ hx hstep j hj hid => IsPresent.stable (hx j hj hid) hstep
  refine (calm_unfinished (stable_const _ True)).driveAll
    (fun jobs => calm_unfinished (hstable jobs)) ?_ ?_ trivial
  · intro jobs u v _ _ hacts
    refine ⟨Surroundings.nodup_of_listed hacts.1 hacts.2.2, ?_⟩
    obtain ⟨now, hreply, htables⟩ := Surroundings.acts_ok hacts.2.2
    rintro j hj rfl
    rw [IsPresent, htables]
    have hrows : jobs = u.tables.jobsIn .running := hreply
    rw [hrows] at hj
    have hmem := (List.mem_filter.1 (List.mem_mergeSort.1 hj)).1
    exact Option.isSome_iff_exists.2 ⟨j, (Tables.job?_eq_some_iff hacts.1).2 ⟨hmem, rfl⟩⟩
  · intro jobs begun x hbegun _ hx
    exact countsFirst_forEach_drive fun j hj => hx j (hbegun.subset hj)

theorem countsFirst_tick : CountsFirst around job e.tick w := by
  have hpromote : Asks (Effect.Within (.unfinished job)) Engine.promote.run := by
    apply Engine.asks_promote
    intro id _ hsources
    cases hsources
  have hreconcile : Asks (Effect.Within (.unfinished job)) e.reconcile.run := by
    refine e.asks_reconcile (fun _ => trivial) (fun _ => trivial) (fun _ => trivial) ?_
    rintro id current outcome (rfl | rfl) - - hsources <;> cases hsources
  exact Meets.tick (stable_const _ True) (fun _ _ => countsFirst_of_asks hpromote)
    (fun _ _ => countsFirst_of_asks hreconcile) (fun _ _ => countsFirst_driveAll) trivial

/-- Nothing makes an item pending but the renewal of a failed one. -/
theorem StoreCall.eq_resetFailed_of_pending {now : Timestamp} {c : StoreCall} {i : Item}
    (hafter : (c.onItem now i).status = .known .pending) (hbefore : i.status ≠ .known .pending) :
    c = .resetFailed i.jobId ∧ i.status = .known .failed := by
  cases c with
  | resetFailed id =>
      simp only [onItem] at hafter
      split at hafter
      · rename_i hfailure
        simp only [Tables.isFailure, Bool.and_eq_true, beq_iff_eq] at hfailure
        exact ⟨by rw [hfailure.1], hfailure.2⟩
      · exact absurd hafter hbefore
  | checkItems ids =>
      simp only [onItem] at hafter
      split at hafter <;> exact absurd hafter hbefore
  | queueItem id remoteId =>
      simp only [onItem] at hafter
      split at hafter
      · cases hafter
      · exact absurd hafter hbefore
  | failItem id source error =>
      simp only [onItem] at hafter
      split at hafter
      · cases hafter
      · exact absurd hafter hbefore
  | confirmItem id =>
      simp only [onItem] at hafter
      split at hafter
      · cases hafter
      · exact absurd hafter hbefore
  | _ => exact absurd hafter hbefore

/-- An operator's retry makes a failed item of a job pending again. -/
def Event.RenewedBy (job item : Uuid) (v : Event) : Prop :=
  v.renews item = true ∧ ∃ place, v.actor = .operator place (.retry job .failed)

/-- A pending item of a job that was there before was pending already, or it is renewed. -/
theorem pending_or_renewed {actor : Actor} {effect : Effect} {answer : effect.Answer} {u v : Scene}
    (hu : u.tables.IsWellFormed) (hacts : around.acts actor effect answer u v)
    (hwithin : effect.Within actor.scope) (hpresent : IsPresent job u) {i : Item}
    (hi : i ∈ v.tables.itemsOf job) (hpending : i.status = .known .pending) :
    (∃ k ∈ u.tables.itemsOf job, k.id = i.id ∧ k.status = .known .pending) ∨
      Event.RenewedBy job i.id ⟨actor, effect, answer, u.tables, v.tables⟩ := by
  have hv := Surroundings.acts_isWellFormed hu hacts
  rcases Surroundings.acts_tables hacts with htables | ⟨call, now, rfl | rfl, htables⟩
  · exact .inl ⟨i, htables ▸ hi, rfl, hpending⟩
  · obtain ⟨j, hrow⟩ := Option.isSome_iff_exists.1 hpresent
    obtain ⟨hj, rfl⟩ := (Tables.job?_eq_some_iff hu).1 hrow
    have hrows := hi
    rw [htables, Tables.itemsOf_serve hu, Tables.newItemsOf_eq_nil (Tables.id_ne_issued hu hj),
      List.append_nil, List.mem_map] at hrows
    obtain ⟨k, hk, rfl⟩ := hrows
    by_cases hbefore : k.status = .known .pending
    · exact .inl ⟨k, hk, by simp, hbefore⟩
    · obtain ⟨rfl, hfailed⟩ := StoreCall.eq_resetFailed_of_pending hpending hbefore
      obtain ⟨hkmem, hkjob⟩ := Tables.mem_itemsOf.1 hk
      have hold := (Tables.item?_eq_some_iff hu).2 ⟨hkmem, rfl⟩
      have hnew := (Tables.item?_eq_some_iff hv).2 ⟨(Tables.mem_itemsOf.1 hi).1, rfl⟩
      rw [StoreCall.onItem_id] at hnew ⊢
      refine .inr ⟨by simp [Event.renews, hold, hnew, hfailed, hpending], ?_⟩
      cases actor with
      | engine => exact absurd hwithin id
      | operator place call =>
          obtain rfl : call = .retry k.jobId .failed := hwithin
          exact ⟨place, by rw [hkjob]⟩
  · exact absurd hwithin id

namespace Office

variable {t : Tables} {o : Office}

theorem Reachable.isReckoned (ht : t.IsWellFormed) (ho : Reachable e around t o) (job : Uuid) :
    History.IsReckoned job o.scene.history := by
  have hquiet : ∀ place call effect answer u v, Effect.Within (OperatorCall.desk call) effect →
      u.tables.IsWellFormed → v.tables.IsWellFormed →
        around.acts (.operator place call) effect answer u v → Reckoned job u v := by
    intro place call effect answer u v _ hu _ hacts
    exact reckoned_of_acts hu hacts fun hactor => by cases hactor
  have hstable : Stable (Reckoned job) fun s => History.IsReckoned job s.history :=
    fun _ _ hu hstep => hstep.reckoned hu
  have htick : ∀ s : Scene, s.tables.IsWellFormed → True → e.tick.Meets (engineTurns around)
      (Reckoned job)
      (fun u v => History.IsReckoned job u.history → History.IsReckoned job v.history)
      (fun _ _ => True) s := fun s _ _ =>
    countsFirst_tick.mono (fun _ _ h => h.toGrows) (fun _ _ h => h.reckoned) fun _ _ h => h
  have horderly := ho.orderly ⟨trivial, trivial⟩ OperatorCall.asks_desk
    (fun _ _ hpast _ _ => hpast.isWellFormed ht) hquiet hstable (stable_const _ True) htick
    (ho.isWellFormed ht)
  exact horderly.holds

/-- After a count without pending items, only a renewal makes an item of the job pending. -/
theorem Reachable.renewed_since (ht : t.IsWellFormed) (ho : Reachable e around t o)
    {between before : List Event} {w : Event}
    (hsplit : o.scene.history = between ++ w :: before) (hw : w.Reckons job) :
    IsPresent job o.scene ∧ ∀ i ∈ o.scene.tables.itemsOf job, i.status = .known .pending →
      ∃ x ∈ between, x.RenewedBy job i.id := by
  induction ho generalizing between with
  | refl => simp [opening] at hsplit
  | @tail o o' ho hstep ih =>
      have hu : o.scene.tables.IsWellFormed := Reachable.isWellFormed ht ho
      rcases hstep.scene_eq_or_acts with hscene | ⟨actor, effect, answer, hacts⟩
      · rw [hscene] at hsplit ⊢
        exact ih hsplit
      · have hhistory := Surroundings.acts_history hacts
        rw [hsplit] at hhistory
        cases between with
        | nil =>
            obtain ⟨rfl, -⟩ := List.cons.inj hhistory
            refine ⟨(grows_of_acts hu hacts).present hw.present, fun i hi hpending => ?_⟩
            have hnone := List.countP_eq_zero.1 hw.settled i hi
            simp [hpending] at hnone
        | cons x between =>
            obtain ⟨rfl, hrest⟩ := List.cons.inj hhistory
            obtain ⟨hpresent, hrenewed⟩ := ih hrest.symm
            refine ⟨IsPresent.stable hpresent (grows_of_acts hu hacts), fun i hi hpending => ?_⟩
            have hwithin := Reachable.within_of_acts (ho.tail hstep) hacts
            rcases pending_or_renewed hu hacts hwithin hpresent hi hpending with
              ⟨k, hk, hid, hkpending⟩ | hnow
            · obtain ⟨x, hx, hxrenews⟩ := hrenewed k hk hkpending
              exact ⟨x, List.mem_cons_of_mem _ hx, hid ▸ hxrenews⟩
            · exact ⟨_, List.mem_cons_self, hnow⟩

/-- Whatever operators do meanwhile: only the engine moves a job from running to completed or
failed.  It has counted the job's items before with none of them pending, and an item that is
pending by then was renewed since the count by an operator's retry of failed items. -/
theorem Reachable.finished_after_count (ht : t.IsWellFormed) (ho : Reachable e around t o)
    {later earlier : List Event} {v : Event} {outcome : JobStatus}
    (hsplit : o.scene.history = later ++ v :: earlier)
    (hbefore : v.before.statusOf job = some (.known .running))
    (hafter : v.after.statusOf job = some (.known outcome))
    (houtcome : outcome = .completed ∨ outcome = .failed) :
    v.actor = .engine ∧ ∃ between w before, earlier = between ++ w :: before ∧
      w.actor = .engine ∧ w.effect = .store (.refreshStats job) ∧
      w.after.countOf job .pending = 0 ∧
      ∀ i ∈ v.before.itemsOf job, i.status = .known .pending →
        ∃ x ∈ between, x.renews i.id = true ∧
          ∃ place, x.actor = .operator place (.retry job .failed) := by
  obtain ⟨o₁, o₂, ho₁, ho₂, hacts, hearlier, hbefore₁, hhistory, hafter₂⟩ := ho.past hsplit
  have hwithin := ho₂.within_of_acts hacts
  rw [← hbefore₁] at hbefore
  rw [← hafter₂] at hafter
  have hfinished : v.actor = .engine ∧
      ∃ target, v.effect = .store (.moveJob job [.running] target) := by
    rcases Surroundings.acts_passage (ho₁.isWellFormed ht) hacts hwithin hbefore with
      hsame | ⟨source, target, hsource, htarget, hpassage⟩
    · rw [hafter] at hsame
      obtain rfl : outcome = .running := by simpa using hsame
      rcases houtcome with h | h <;> cases h
    · obtain rfl : source = .running := by simpa using hsource.symm
      obtain rfl : target = outcome := by simpa [htarget] using hafter
      cases hpassage with
      | finished hactor heffect _ => exact ⟨hactor, target, heffect⟩
      | revised _ hcurrent _ => rcases hcurrent with h | h <;> cases h
      | stopped _ htarget =>
          rcases houtcome with rfl | rfl <;> rcases htarget with h | h <;> cases h
      | restarted _ _ => rcases houtcome with h | h <;> cases h
  obtain ⟨hactor, hmove⟩ := hfinished
  have hreckoned := (ho.isReckoned ht job)
  rw [hsplit] at hreckoned
  obtain ⟨w, hw, hreckons⟩ := hreckoned.of_append.1 hactor hmove
  obtain ⟨between, before, hsplit'⟩ := List.append_of_mem hw
  refine ⟨hactor, between, w, before, hsplit', hreckons.actor, hreckons.effect, hreckons.settled,
    ?_⟩
  rw [← hbefore₁]
  exact (ho₁.renewed_since ht (hearlier.trans hsplit') hreckons).2

end Office

namespace Rehearsal

open Office (Reachable played reachable_played)

/-- The engine counts the items of a job whose only item has failed, one operator pauses the job and
another one retries it, and then the engine goes on. -/
def hurried : List Cue :=
  List.flatten
    [[.beginCall call], .replicate 5 (.call 0), [.beginTick], .replicate 14 .tick,
      [.beginTick], .replicate 7 .tick, [.beginCall (.pause Rehearsal.job)],
      .replicate 2 (.call 1), [.beginCall (.retry Rehearsal.job .failed)],
      .replicate 6 (.call 2), [.tick]]

theorem hurried_finishes :
    ∃ o, Reachable engine .reliable tables o ∧ ∃ v ∈ o.scene.history,
      v.before.statusOf Rehearsal.job = some (.known .running) ∧
        v.after.statusOf Rehearsal.job = some (.known .failed) ∧
          v.before.countOf Rehearsal.job .pending = 1 := by
  refine ⟨_, reachable_played reliable_refusing hurried, ?_⟩
  have hfinishes : (played engine refusing tables hurried).scene.history.any (fun v =>
      v.before.statusOf Rehearsal.job == some (.known .running) &&
        (v.after.statusOf Rehearsal.job == some (.known .failed) &&
          v.before.countOf Rehearsal.job .pending == 1)) = true := by
    decide +kernel
  obtain ⟨v, hv, hmoves⟩ := List.any_eq_true.1 hfinishes
  simp only [Bool.and_eq_true, beq_iff_eq] at hmoves
  exact ⟨v, hv, hmoves⟩

end Rehearsal

namespace Office

/-- The item over which a job was finished had been renewed by an operator. -/
theorem renewed_before_finished :
    Rehearsal.tables.IsWellFormed ∧
      ∃ o, Reachable Rehearsal.engine .reliable Rehearsal.tables o ∧
        ∃ later v earlier, o.scene.history = later ++ v :: earlier ∧
          v.before.statusOf Rehearsal.job = some (.known .running) ∧
            v.after.statusOf Rehearsal.job = some (.known .failed) ∧ v.actor = .engine ∧
              ∃ i ∈ v.before.itemsOf Rehearsal.job, i.status = .known .pending ∧
                ∃ x ∈ earlier, x.renews i.id = true ∧
                  ∃ place, x.actor = .operator place (.retry Rehearsal.job .failed) := by
  have ht := Rehearsal.isWellFormed
  obtain ⟨o, ho, v, hv, hbefore, hafter, hcount⟩ := Rehearsal.hurried_finishes
  obtain ⟨later, earlier, hsplit⟩ := List.append_of_mem hv
  obtain ⟨hactor, between, w, before, rfl, -, -, -, hrenewed⟩ :=
    Reachable.finished_after_count ht ho hsplit hbefore hafter (.inr rfl)
  obtain ⟨i, hi, hstatus⟩ := List.countP_pos_iff.1 (hcount ▸ Nat.one_pos)
  have hpending : i.status = .known .pending := by simpa using hstatus
  obtain ⟨x, hx, hrenews⟩ := hrenewed i hi hpending
  exact ⟨ht, o, ho, later, v, _, hsplit, hbefore, hafter, hactor, i, hi, hpending, x,
    List.mem_append_left _ hx, hrenews⟩

/-- It is not so that no item is pending whenever a job is finished. -/
theorem may_finish_over_pending :
    ¬ ∀ (e : Engine) (t : Tables) (o : Office), t.IsWellFormed → Reachable e .reliable t o →
      ∀ v ∈ o.scene.history, ∀ (job : Uuid) (outcome : JobStatus),
        v.before.statusOf job = some (.known .running) →
          v.after.statusOf job = some (.known outcome) →
            outcome = .completed ∨ outcome = .failed → v.before.countOf job .pending = 0 := by
  intro hclaim
  obtain ⟨o, ho, v, hv, hbefore, hafter, hcount⟩ := Rehearsal.hurried_finishes
  have hnone := hclaim _ _ o Rehearsal.isWellFormed ho v hv _ _ hbefore hafter (.inr rfl)
  omega

end Office

end Mailroom
