import Mailroom.Proofs.Concurrency.Call
import Mailroom.Proofs.Concurrency.Cues
import Mailroom.Proofs.Delivery.Record
import Mailroom.Proofs.Jobs.Balance
import Mailroom.Proofs.Jobs.Postage

/-!
Stopping a job.  The engine works on a list of running jobs and on a batch of pending items that it
has read before an operator stops the job.  Main statement: until the job is restarted, at most the
rest of one batch is sent, and nothing at all of a job that had not yet started.  A pause or cancel
that has come to a good end has stopped its job in this sense.
-/

namespace Mailroom

open JobControl (Move)
open Program (Meets)

variable {e : Engine} {around : Surroundings} {actor : Actor} {effect : Effect}
  {answer : effect.Answer} {u v : Scene} {job : Uuid} {ids : List Uuid}

/-- Whether a server is offered a message of one of a job's items. -/
def Event.mails (job : Uuid) (v : Event) : Bool :=
  v.offered?.any fun offer => (v.before.itemsOf job).any fun i =>
    offer.2.headers.get? Engine.itemHeader == some i.id.display

/-- A job is scheduled, if it is there at all. -/
def IsDormant (job : Uuid) (s : Scene) : Prop :=
  ∀ status, s.tables.statusOf job = some status → status = .known .scheduled

/-- A job is held or given up. -/
def IsHalted (job : Uuid) (s : Scene) : Prop :=
  s.tables.statusOf job = some (.known .paused) ∨ s.tables.statusOf job = some (.known .cancelled)

/-- No job gets scheduled again. -/
theorem IsDormant.back (hu : u.tables.IsWellFormed) (hacts : around.acts actor effect answer u v)
    (hwithin : effect.Within actor.scope) (hv : IsDormant job v) : IsDormant job u := by
  intro status hstatus
  rcases Surroundings.acts_passage hu hacts hwithin hstatus with
    hsame | ⟨source, target, rfl, htarget, hpassage⟩
  · exact hv status hsame
  · obtain rfl : target = .scheduled := Stored.known.inj (hv _ htarget)
    cases hpassage with
    | finished _ _ houtcome => rcases houtcome with h | h <;> cases h
    | revised _ _ houtcome => rcases houtcome with h | h <;> cases h
    | stopped _ hstop => rcases hstop with h | h <;> cases h

/-- A job that is held or given up stays so until it is restarted. -/
theorem IsHalted.next (hu : u.tables.IsWellFormed) (hacts : around.acts actor effect answer u v)
    (hwithin : effect.Within actor.scope) (hhalted : IsHalted job u)
    (hgoes : Event.restarts job ⟨actor, effect, answer, u.tables, v.tables⟩ = false) :
    IsHalted job v := by
  have hpassed : ∀ source : JobStatus, source = .paused ∨ source = .cancelled →
      u.tables.statusOf job = some (.known source) → IsHalted job v := by
    intro source hhalt hsource
    rcases Surroundings.acts_passage hu hacts hwithin hsource with
      hsame | ⟨source', target, hsame, htarget, hpassage⟩
    · rcases hhalt with rfl | rfl
      · exact .inl hsame
      · exact .inr hsame
    · obtain rfl := Stored.known.inj hsame
      cases hpassage with
      | promoted _ => rcases hhalt with h | h <;> cases h
      | finished _ _ _ => rcases hhalt with h | h <;> cases h
      | revised _ hcurrent _ =>
          rcases hcurrent with rfl | rfl <;> rcases hhalt with h | h <;> cases h
      | stopped _ hstop => rcases hstop with rfl | rfl <;> simp [IsHalted, htarget]
      | restarted hrestarts _ => rw [hgoes] at hrestarts; cases hrestarts
  rcases hhalted with h | h
  · exact hpassed .paused (.inl rfl) h
  · exact hpassed .cancelled (.inr rfl) h

/-- An operator who stops a job holds it or gives it up. -/
theorem isHalted_of_stops (hu : u.tables.IsWellFormed)
    (hacts : around.acts actor effect answer u v) (hwithin : effect.Within actor.scope)
    (hstops : Event.stops job ⟨actor, effect, answer, u.tables, v.tables⟩ = true) :
    IsHalted job v := by
  obtain ⟨place, call, target, hactor, hcall, hmoved⟩ := Event.stops_eq_true hstops
  obtain ⟨sources, source, rfl, -, -, hstatus⟩ := Surroundings.acts_of_moved hu hacts hmoved
  obtain rfl : actor = .operator place call := hactor
  obtain ⟨m, hm, -, rfl⟩ := hwithin
  rcases hcall with rfl | rfl
  · obtain ⟨-, rfl⟩ := Prod.mk.inj (Option.some.inj hm)
    exact .inl hstatus
  · obtain ⟨-, rfl⟩ := Prod.mk.inj (Option.some.inj hm)
    exact .inr hstatus

theorem IsDormant.not_running {s : Scene} (h : IsDormant job s) :
    s.tables.statusOf job ≠ some (.known .running) := by
  intro hrunning
  cases h _ hrunning

theorem IsHalted.not_running {s : Scene} (h : IsHalted job s) :
    s.tables.statusOf job ≠ some (.known .running) := by
  rcases h with h | h <;> simp [h]

theorem listing_of_acts {idle : Prop} (hu : u.tables.IsWellFormed) (howns : Owns job ids u)
    (hidle : idle → u.tables.statusOf job ≠ some (.known .running))
    (hacts : around.acts actor effect answer u v) : listing job ids idle effect answer := by
  cases effect with
  | store call =>
      cases answer with
      | error failure =>
          cases call with
          | jobsIn status => cases status <;> trivial
          | _ => trivial
      | ok reply =>
          obtain ⟨now, hreply, -⟩ := Surroundings.acts_ok hacts
          cases call with
          | pendingItems id limit =>
              have hitems : reply = u.tables.pendingItems id limit := hreply
              subst hitems
              refine ⟨List.length_take_le _ _, fun i hi => ?_⟩
              obtain ⟨hmem, hjob, -⟩ := Tables.mem_pendingItems hi
              rw [← howns i hmem, hjob]
          | jobsIn status =>
              have hjobs : reply = u.tables.jobsIn status := hreply
              subst hjobs
              cases status with
              | running =>
                  refine ⟨Tables.jobsIn_nodup hu .running, ?_⟩
                  rintro hidle' j hj rfl
                  obtain ⟨hmem, hstatus⟩ := List.mem_filter.1 (List.mem_mergeSort.1 hj)
                  apply hidle hidle'
                  rw [Tables.statusOf, (Tables.job?_eq_some_iff hu).2 ⟨hmem, rfl⟩]
                  simpa using hstatus
              | _ => trivial
          | _ => trivial
  | _ => trivial

/-- What holds of an idle job holds anyway. -/
theorem listing_of_idle (h : listing job ids True effect answer) :
    listing job ids False effect answer := by
  cases effect with
  | store call =>
      cases answer with
      | error failure =>
          cases call with
          | jobsIn status => cases status <;> trivial
          | _ => trivial
      | ok reply =>
          cases call with
          | pendingItems id limit => exact h
          | jobsIn status =>
              cases status with
              | running => exact ⟨h.1, fun hidle => absurd hidle id⟩
              | _ => trivial
          | _ => trivial
  | _ => trivial

/-- Whoever offers a message of the job's items pays for it. -/
theorem postage_of_mails (howns : Owns job ids u)
    (hmails : Event.mails job ⟨actor, effect, answer, u.tables, v.tables⟩ = true) :
    postage ids effect = 1 := by
  cases effect with
  | mta server call =>
      cases call with
      | submit message =>
          obtain ⟨i, hi, hheader⟩ : ∃ i ∈ u.tables.itemsOf job,
              message.headers.get? Engine.itemHeader = some i.id.display := by
            simpa [Event.mails, Event.offered?] using hmails
          obtain ⟨hmem, hjob⟩ := Tables.mem_itemsOf.1 hi
          have hid : i.id ∈ ids := (howns i hmem).1 hjob
          have hnamed : ids.any (fun id => message.headers.get? Engine.itemHeader ==
              some id.display) = true :=
            List.any_eq_true.2 ⟨i.id, hid, by simp [hheader]⟩
          simp [postage, hnamed]
      | _ => cases hmails
  | _ => cases hmails

/-- Operators send nothing. -/
theorem not_mails_of_operator {place : Nat} {call : OperatorCall}
    (hwithin : effect.Within call.desk) :
    Event.mails job ⟨.operator place call, effect, answer, u.tables, v.tables⟩ = false := by
  cases effect with
  | mta server c =>
      cases c with
      | submit message =>
          have hnone : ∀ i ∈ u.tables.itemsOf job,
              message.headers.get? Engine.itemHeader ≠ some i.id.display :=
            fun i _ => hwithin i.id
          simpa [Event.mails, Event.offered?] using hnone
      | _ => rfl
  | _ => rfl

namespace Office

variable {t : Tables} {o : Office}

/-- The tick under way sends no more of a job than so much. -/
abbrev MaySend (job : Uuid) (ids : List Uuid) (idle : Prop) (o : Office) (n : Nat) : Prop :=
  SendsAtMost job ids idle o.tick n fun _ => True

/-- What may still be sent of a job after it was stopped. -/
def allowance (e : Engine) (job : Uuid) (v : Event) : Nat :=
  if v.before.statusOf job = some (.known .scheduled) then 0 else e.settings.batchSize.toNat

/-- What the tick under way may send of a job: one batch, nothing before the job has started, and
after it was stopped no more than is left of the allowance. -/
structure Rations (e : Engine) (job : Uuid) (ids : List Uuid) (o : Office) : Prop where
  batch : o.MaySend job ids False e.settings.batchSize.toNat
  dormant : IsDormant job o.scene → o.MaySend job ids True 0
  stopped : ∀ window v earlier, o.scene.history = window ++ v :: earlier → v.stops job = true →
    (∀ w ∈ window, w.restarts job = false) → IsHalted job o.scene ∧
      ∃ n, o.MaySend job ids True n ∧ window.countP (Event.mails job) + n ≤ allowance e job v

/-- A turn of the engine takes what it sends out of the rations. -/
theorem Rations.of_turn {left : Program TickReport} (hu : o.scene.tables.IsWellFormed)
    (howns : Owns job ids o.scene) (hturn : o.tick.Turn effect answer left)
    (hacts : around.acts .engine effect answer o.scene v) (hwithin : effect.Within .engine)
    (h : Rations e job ids o) : Rations e job ids { o with scene := v, tick := left } := by
  have hidle : o.scene.tables.statusOf job ≠ some (.known .running) →
      listing job ids True effect answer :=
    fun hnot => listing_of_acts hu howns (fun _ => hnot) hacts
  refine ⟨?_, fun hdormant => ?_, fun window w earlier hsplit hstops hgoes => ?_⟩
  · have hlisting : listing job ids False effect answer :=
      listing_of_acts hu howns (fun h => absurd h id) hacts
    obtain ⟨rest, hle, hrest⟩ := h.batch.turn hturn hlisting
    exact hrest.le (by omega)
  · have hbefore : IsDormant job o.scene := hdormant.back hu hacts hwithin
    obtain ⟨rest, hle, hrest⟩ := (h.dormant hbefore).turn hturn (hidle hbefore.not_running)
    exact hrest.le (by omega)
  · have hhistory := Surroundings.acts_history hacts
    rw [hsplit] at hhistory
    cases window with
    | nil =>
        -- the engine stops nothing
        obtain ⟨rfl, -⟩ := List.cons.inj hhistory
        cases hstops
    | cons x window =>
        obtain ⟨rfl, hpast⟩ := List.cons.inj hhistory
        obtain ⟨hgo, hgoes⟩ := List.forall_mem_cons.1 hgoes
        obtain ⟨hhalted, n, hmay, hle⟩ := h.stopped window w earlier hpast.symm hstops hgoes
        obtain ⟨rest, hprice, hrest⟩ := hmay.turn hturn (hidle hhalted.not_running)
        refine ⟨hhalted.next hu hacts hwithin hgo, rest, hrest, ?_⟩
        rw [List.countP_cons]
        split
        · rename_i hmails
          have hpaid := postage_of_mails howns hmails
          omega
        · omega

/-- Whatever an operator does leaves the rations as they are, and whoever stops the job leaves no
more than what the tick may send. -/
theorem Rations.of_call {place : Nat} {call : OperatorCall}
    {calls : List (OperatorCall × Program (Except JobError Job))}
    (hu : o.scene.tables.IsWellFormed)
    (hacts : around.acts (.operator place call) effect answer o.scene v)
    (hwithin : effect.Within call.desk) (h : Rations e job ids o) :
    Rations e job ids { o with scene := v, calls } := by
  refine ⟨h.batch, fun hdormant => h.dormant (hdormant.back hu hacts hwithin),
    fun window w earlier hsplit hstops hgoes => ?_⟩
  have hhistory := Surroundings.acts_history hacts
  rw [hsplit] at hhistory
  cases window with
  | nil =>
      -- the job has just been stopped, and what the tick may send is the whole allowance
      obtain ⟨rfl, -⟩ := List.cons.inj hhistory
      refine ⟨isHalted_of_stops hu hacts hwithin hstops,
        allowance e job ⟨.operator place call, effect, answer, o.scene.tables, v.tables⟩, ?_,
        by simp⟩
      unfold allowance
      split
      · rename_i hscheduled
        refine h.dormant fun status hstatus => ?_
        exact Option.some.inj (hstatus.symm.trans hscheduled)
      · exact h.batch.mono (Nat.le_refl _) (fun _ _ => listing_of_idle) fun _ h => h
  | cons x window =>
      obtain ⟨rfl, hpast⟩ := List.cons.inj hhistory
      obtain ⟨hgo, hgoes⟩ := List.forall_mem_cons.1 hgoes
      obtain ⟨hhalted, n, hmay, hle⟩ := h.stopped window w earlier hpast.symm hstops hgoes
      refine ⟨hhalted.next hu hacts hwithin hgo, n, hmay, ?_⟩
      rwa [List.countP_cons_of_neg]
      simp [not_mails_of_operator hwithin]

theorem Reachable.rations (ht : t.IsWellFormed) (ho : Reachable e around t o)
    (howns : Owns job ids o.scene) : Rations e job ids o := by
  induction ho with
  | refl =>
      refine ⟨trivial, fun _ => trivial, fun window v earlier hsplit => ?_⟩
      simp [opening] at hsplit
  | @tail o o' ho hstep ih =>
      have hu : o.scene.tables.IsWellFormed := Reachable.isWellFormed ht ho
      have ho' : Reachable e around t o' := ho.tail hstep
      cases hstep with
      | beginTick hidle =>
          obtain ⟨-, -, hstopped⟩ := ih howns
          refine ⟨e.sends_tick e.sends_driveAll,
            fun _ => e.sends_tick (e.sends_driveAll_idle trivial),
            fun window v earlier hsplit hstops hgoes => ?_⟩
          -- a tick that begins after the stop does not find the job running
          obtain ⟨hhalted, n, -, hle⟩ := hstopped window v earlier hsplit hstops hgoes
          exact ⟨hhalted, 0, e.sends_tick (e.sends_driveAll_idle trivial), by omega⟩
      | beginCall call =>
          obtain ⟨hbatch, hdormant, hstopped⟩ := ih howns
          exact ⟨hbatch, hdormant, hstopped⟩
      | tick hturn hacts =>
          have hbefore : Owns job ids o.scene := howns.back hu hacts
          exact (ih hbefore).of_turn hu hbefore hturn hacts (ho'.within_of_acts hacts)
      | call hcall hturn hacts =>
          have hbefore : Owns job ids o.scene := howns.back hu hacts
          exact (ih hbefore).of_call hu hacts (ho'.within_of_acts hacts)

/-- However ticks and operators' calls take turns: between a successful pause or cancel of a job and
its next successful resume or retry, servers are offered messages of its items at most as often as
one batch has items, and never if the job was scheduled when it was stopped. -/
theorem Reachable.mails_after_stop_le (ht : t.IsWellFormed) (ho : Reachable e around t o)
    {later window earlier : List Event} {v : Event}
    (hsplit : o.scene.history = later ++ (window ++ v :: earlier)) (hstops : v.stops job = true)
    (hgoes : ∀ w ∈ window, w.restarts job = false) :
    (window.countP (Event.mails job) : Int) ≤ max e.settings.batchSize 0 ∧
      (v.before.statusOf job = some (.known .scheduled) →
        window.countP (Event.mails job) = 0) := by
  obtain ⟨o', ho', hhistory⟩ := ho.exists_past hsplit
  obtain ⟨ids, howns⟩ := exists_owns (ho'.isWellFormed ht) job
  obtain ⟨-, n, -, hle⟩ :=
    (ho'.rations ht howns).stopped window v earlier hhistory hstops hgoes
  constructor
  · have hallowed : allowance e job v ≤ e.settings.batchSize.toNat := by
      unfold allowance
      split <;> omega
    omega
  · intro hscheduled
    rw [allowance, if_pos hscheduled] at hle
    omega

end Office

section

variable {me : Actor} {target : JobStatus} {w : Scene}

def IsMovedBy (me : Actor) (job : Uuid) (target : JobStatus) (s : Scene) : Prop :=
  ∃ v ∈ s.history, v.actor = me ∧ v.moved? job = some target

/-- What a call has left behind that ends well if it moves a job. -/
def Moves (me : Actor) (job : Uuid) (target : JobStatus) (result : Except JobError Job)
    (s : Scene) : Prop :=
  ∀ j, result = .ok j → IsMovedBy me job target s

theorem IsMovedBy.next (hu : IsMovedBy me job target u)
    (hacts : around.acts actor effect answer u v) : IsMovedBy me job target v := by
  obtain ⟨w, hw, h⟩ := hu
  exact ⟨w, Surroundings.acts_history hacts ▸ List.mem_cons_of_mem _ hw, h⟩

theorem IsMovedBy.stable : Stable (Others around me) (IsMovedBy me job target) := by
  rintro u v hu ⟨actor, effect, answer, -, -, hacts⟩
  exact hu.next hacts

theorem Moves.stable (result : Except JobError Job) :
    Stable (Others around me) (Moves me job target result) :=
  fun _ _ hu hstep j hj => IsMovedBy.stable (hu j hj) hstep

/-- Whatever others do meanwhile, an actor's program does not end but so. -/
abbrev Attains {α : Type} (around : Surroundings) (me : Actor) (p : Program α)
    (post : α → Scene → Prop) (w : Scene) : Prop :=
  p.Meets (around.acts me) (Others around me) (fun _ _ => True) post w

theorem moves_of_error (error : JobError) :
    Attains around me (pure (Except.error error : Except JobError Job)) (Moves me job target) w := by
  refine Meets.pure (Moves.stable _) fun j hj => ?_
  cases hj

/-- A look at a job keeps what any request keeps. -/
theorem attains_get {P : Scene → Prop} (hP : Stable (Others around me) P)
    (hkeeps : ∀ effect answer u v, P u → around.acts me effect answer u v → P v) (hw : P w) :
    Attains around me (JobControl.get job).run (fun _ => P) w := by
  have hasks : (JobControl.get job).run.Asks fun _ => True :=
    Program.asks_of_forall (fun _ => trivial) _
  exact Meets.keep hasks hP
    (fun effect answer u v _ hu hacts => ⟨trivial, hkeeps effect answer u v hu hacts⟩) hw

theorem attains_look : Attains around me (JobControl.get job).run (fun _ _ => True) w :=
  attains_get (stable_const _ True) (fun _ _ _ _ _ _ => trivial) trivial

theorem moves_make (m : Move) : Attains around me (m.make job).run (Moves me job m.target) w := by
  apply Meets.serviceBind
  apply attains_look.weaken
  intro result u _
  cases result with
  | error error => exact moves_of_error error
  | ok j =>
      apply Meets.liftExcept
      · intro status _
        apply Meets.store (stable_const _ True) trivial
        · intro reply x y _ hacts
          refine ⟨trivial, ?_⟩
          cases reply with
          | some moved =>
              have hmoved : IsMovedBy me job m.target y := by
                rw [IsMovedBy, Surroundings.acts_history hacts]
                exact ⟨_, List.mem_cons_self, rfl, by simp [Event.moved?]⟩
              exact Meets.pure (Moves.stable _) fun _ _ => hmoved
          | none =>
              apply Meets.serviceBind
              apply attains_look.weaken
              intro result z _
              cases result with
              | ok k => exact moves_of_error _
              | error error => exact moves_of_error error
        · intro failure x y _ _
          exact ⟨trivial, moves_of_error _⟩
      · intro error _
        exact moves_of_error error

/-- What is left of a retry once it has renewed what it has to. -/
theorem moves_restart :
    Attains around me
      (do
        let _ ← Move.retry.make job
        let _ ← Service.store (.refreshStats job)
        JobControl.get job : Service JobError Job).run (Moves me job .running) w := by
  apply Meets.serviceBind
  apply (moves_make Move.retry).weaken
  intro result u hu
  cases result with
  | error error => exact moves_of_error error
  | ok moved =>
      apply Meets.store IsMovedBy.stable (hu moved rfl)
      · intro stats x y hx hacts
        have hkept : Attains around me (JobControl.get job).run
            (fun _ => IsMovedBy me job .running) y :=
          attains_get IsMovedBy.stable (fun _ _ _ _ hu hacts => hu.next hacts) (hx.next hacts)
        exact ⟨trivial, hkept.weaken fun _ _ h _ _ => h⟩
      · intro failure x y _ _
        exact ⟨trivial, moves_of_error _⟩

theorem moves_retry (action : RetryAction) :
    Attains around me (JobControl.retry job action).run (Moves me job .running) w := by
  apply Meets.serviceBind
  apply attains_look.weaken
  intro result u _
  cases result with
  | error error => exact moves_of_error error
  | ok j =>
      apply Meets.liftExcept
      · intro status _
        cases action with
        | pending => exact moves_restart
        | failed =>
            apply Meets.store (stable_const _ True) trivial
            · intro count x y _ _
              exact ⟨trivial, moves_restart⟩
            · intro failure x y _ _
              exact ⟨trivial, moves_of_error _⟩
      · intro error _
        exact moves_of_error error

theorem moves_program {call : OperatorCall} {m : Move} (hmove : call.move? = some (job, m)) :
    Attains around me call.program (Moves me job m.target) w := by
  cases call with
  | create request registry standard => cases hmove
  | pause id | resume id | cancel id =>
      obtain ⟨rfl, rfl⟩ := Prod.mk.inj (Option.some.inj hmove)
      exact moves_make _
  | retry id action =>
      obtain ⟨rfl, rfl⟩ := Prod.mk.inj (Option.some.inj hmove)
      exact moves_retry action

end

namespace Office

variable {t : Tables} {o : Office} {place : Nat} {call : OperatorCall}
  {p : Program (Except JobError Job)} {j : Job}

/-- A call to move a job that has come to a good end has moved it. -/
theorem Reachable.moved_of_ended (ht : t.IsWellFormed) (ho : Reachable e around t o) {m : Move}
    (hmove : call.move? = some (job, m)) (hcall : o.calls[place]? = some (call, p))
    (hends : p.Ends (.ok j)) :
    ∃ v ∈ o.scene.history, v.actor = .operator place call ∧ v.moved? job = some m.target :=
  (ho.meets_call ht (fun _ _ _ => moves_program hmove) hcall).result hends j rfl

/-- A pause or cancel that has come to a good end has stopped its job. -/
theorem Reachable.stops_of_ended (ht : t.IsWellFormed) (ho : Reachable e around t o)
    (hstop : call = .pause job ∨ call = .cancel job) (hcall : o.calls[place]? = some (call, p))
    (hends : p.Ends (.ok j)) :
    ∃ v ∈ o.scene.history, v.actor = .operator place call ∧ v.stops job = true := by
  rcases hstop with rfl | rfl
  all_goals
    obtain ⟨v, hv, hactor, hmoved⟩ := ho.moved_of_ended ht rfl hcall hends
    exact ⟨v, hv, hactor, by simp [Event.stops, hactor, hmoved]⟩

/-- A resume or retry that has come to a good end has restarted its job. -/
theorem Reachable.restarts_of_ended (ht : t.IsWellFormed) (ho : Reachable e around t o)
    (hrestart : call = .resume job ∨ ∃ action, call = .retry job action)
    (hcall : o.calls[place]? = some (call, p)) (hends : p.Ends (.ok j)) :
    ∃ v ∈ o.scene.history, v.actor = .operator place call ∧ v.restarts job = true := by
  rcases hrestart with rfl | ⟨action, rfl⟩
  all_goals
    obtain ⟨v, hv, hactor, hmoved⟩ := ho.moved_of_ended ht rfl hcall hends
    exact ⟨v, hv, hactor, by simp [Event.restarts, hactor, hmoved]⟩

end Office

namespace Rehearsal

open Office (Reachable played reachable_played)

/-- A tick is about to send the only item when an operator pauses the job; the tick goes on, and
another one follows. -/
def overtaken : List Cue :=
  List.flatten
    [[.beginCall call], .replicate 5 (.call 0), [.beginTick], .replicate 11 .tick,
      [.beginCall (.pause Rehearsal.job)], .replicate 2 (.call 1), .replicate 12 .tick,
      [.beginTick], .replicate 12 .tick]

/-- The job is put off, and a tick is under way when an operator cancels it. -/
def postponed : List Cue :=
  List.flatten
    [[.beginCall (.create ⟨campaign.id, ["north"], none, some ⟨1, 0⟩, none⟩ engine.registry
        .roundRobin)],
      .replicate 5 (.call 0), [.beginTick], .replicate 2 .tick,
      [.beginCall (.cancel Rehearsal.job)], .replicate 2 (.call 1), .replicate 12 .tick]

/-- An office after some cues, where the server takes no message. -/
def refused (cues : List Cue) : Office := played engine refusing tables cues

theorem reachable_refused (cues : List Cue) : Reachable engine .reliable tables (refused cues) :=
  reachable_played reliable_refusing cues

/-- What happened since the job was stopped last. -/
def sinceStop (o : Office) : List Event :=
  o.scene.history.takeWhile fun w => !w.stops Rehearsal.job

theorem exists_last_stop (o : Office) (status : JobStatus)
    (hlast : (o.scene.history.find? (Event.stops Rehearsal.job)).any (fun v =>
      v.before.statusOf Rehearsal.job == some (.known status)) = true) :
    ∃ v earlier, o.scene.history = [] ++ (sinceStop o ++ v :: earlier) ∧
      v.stops Rehearsal.job = true ∧
        v.before.statusOf Rehearsal.job = some (.known status) := by
  obtain ⟨v, hv, hstatus⟩ := (Option.any_eq_true _ _).1 hlast
  obtain ⟨hstops, window, earlier, hsplit, hwindow⟩ := List.find?_eq_some_iff_append.1 hv
  refine ⟨v, earlier, ?_, hstops, by simpa using hstatus⟩
  rw [sinceStop, hsplit, List.takeWhile_append_of_pos hwindow,
    List.takeWhile_cons_of_neg (by simp [hstops]), List.append_nil, List.nil_append]

end Rehearsal

namespace Office

/-- The message that a tick had prepared is still sent after a pause, and no more; and of a job that
was put off and cancelled nothing is sent. -/
theorem last_mail_after_pause :
    Rehearsal.tables.IsWellFormed ∧
      (∃ o, Reachable Rehearsal.engine .reliable Rehearsal.tables o ∧
        ∃ window v earlier, o.scene.history = window ++ v :: earlier ∧
          v.stops Rehearsal.job = true ∧ (∀ w ∈ window, w.restarts Rehearsal.job = false) ∧
            window.countP (Event.mails Rehearsal.job) = 1 ∧
              (1 : Int) ≤ max Rehearsal.engine.settings.batchSize 0) ∧
      ∃ o, Reachable Rehearsal.engine .reliable Rehearsal.tables o ∧
        ∃ window v earlier, o.scene.history = window ++ v :: earlier ∧
          v.stops Rehearsal.job = true ∧ (∀ w ∈ window, w.restarts Rehearsal.job = false) ∧
            v.before.statusOf Rehearsal.job = some (.known .scheduled) ∧
              window.countP (Event.mails Rehearsal.job) = 0 := by
  have ht := Rehearsal.isWellFormed
  refine ⟨ht, ⟨_, Rehearsal.reachable_refused Rehearsal.overtaken, ?_⟩,
    ⟨_, Rehearsal.reachable_refused Rehearsal.postponed, ?_⟩⟩
  · have hgoes : ∀ w ∈ Rehearsal.sinceStop (Rehearsal.refused Rehearsal.overtaken),
        w.restarts Rehearsal.job = false := by
      decide +kernel
    have hmails : (Rehearsal.sinceStop (Rehearsal.refused Rehearsal.overtaken)).countP
        (Event.mails Rehearsal.job) = 1 := by
      decide +kernel
    obtain ⟨v, earlier, hsplit, hstops, -⟩ :=
      Rehearsal.exists_last_stop (Rehearsal.refused Rehearsal.overtaken) .running
        (by decide +kernel)
    obtain ⟨hle, -⟩ := Reachable.mails_after_stop_le ht
      (Rehearsal.reachable_refused Rehearsal.overtaken) hsplit hstops hgoes
    rw [hmails] at hle
    exact ⟨_, v, earlier, hsplit, hstops, hgoes, hmails, hle⟩
  · have hgoes : ∀ w ∈ Rehearsal.sinceStop (Rehearsal.refused Rehearsal.postponed),
        w.restarts Rehearsal.job = false := by
      decide +kernel
    obtain ⟨v, earlier, hsplit, hstops, hscheduled⟩ :=
      Rehearsal.exists_last_stop (Rehearsal.refused Rehearsal.postponed) .scheduled
        (by decide +kernel)
    obtain ⟨-, hnone⟩ := Reachable.mails_after_stop_le ht
      (Rehearsal.reachable_refused Rehearsal.postponed) hsplit hstops hgoes
    exact ⟨_, v, earlier, hsplit, hstops, hgoes, hscheduled, hnone hscheduled⟩

end Office

end Mailroom
