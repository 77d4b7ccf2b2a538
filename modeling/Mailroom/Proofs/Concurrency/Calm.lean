import Mailroom.Proofs.Concurrency.Scope

/-!
Assertions that hold on while a program stays within a scope.  Main statements: such an assertion
holds when recording, sending and driving are over, and it is known which items were left to send
and which jobs were begun; and a tick keeps what each of its parts keeps.
-/

namespace Mailroom

open Program (Asks Meets)

/-- An assertion that the others do not end, and that holds on while requests stay within a
scope. -/
structure Calm (acts : Acts Scene) (s : Scope) (rely pledge : Scene → Scene → Prop)
    (P : Scene → Prop) : Prop where
  stable : Stable rely P
  keeps : ∀ {effect answer u v}, acts effect answer u v → effect.Within s → P u →
    pledge u v ∧ P v

namespace Calm

variable {e : Engine} {acts : Acts Scene} {s : Scope} {rely pledge : Scene → Scene → Prop}
  {P : Scene → Prop} {w : Scene} {α : Type}

theorem meets (hc : Calm acts s rely pledge P) {p : Program α} (hp : Asks (Effect.Within s) p)
    (hw : P w) : p.Meets acts rely pledge (fun _ => P) w :=
  Meets.keep hp hc.stable (fun _ _ _ _ hwithin hu hacts => hc.keeps hacts hwithin hu) hw

/-- A request within the scope. -/
theorem request (hc : Calm acts s rely pledge P) {effect : Effect}
    {k : effect.Answer → Program α} {post : α → Scene → Prop} (hwithin : effect.Within s)
    (hw : P w)
    (hnext : ∀ answer u v, P u → P v → acts effect answer u v →
      (k answer).Meets acts rely pledge post v) :
    (Program.request effect >>= k).Meets acts rely pledge post w := by
  apply Meets.request hc.stable hw
  intro answer u v hu hacts
  obtain ⟨hpledge, hv⟩ := hc.keeps hacts hwithin hu
  exact ⟨hpledge, hnext answer u v hu hv hacts⟩

section

variable {ε : Type} {post : Except ε α → Scene → Prop}

theorem serviceRequest (hc : Calm acts s rely pledge P) {effect : Effect}
    {k : effect.Answer → Service ε α} (hwithin : effect.Within s) (hw : P w)
    (hnext : ∀ answer u v, P u → P v → acts effect answer u v →
      (k answer).run.Meets acts rely pledge post v) :
    (Service.request effect >>= k).run.Meets acts rely pledge post w := by
  apply Meets.serviceRequest hc.stable hw
  intro answer u v hu hacts
  obtain ⟨hpledge, hv⟩ := hc.keeps hacts hwithin hu
  exact ⟨hpledge, hnext answer u v hu hv hacts⟩

/-- A call to the store within the scope. -/
theorem store [OfFailure ε] (hc : Calm acts s rely pledge P) {call : StoreCall}
    {k : call.Reply → Service ε α} (hwithin : (Effect.store call).Within s) (hw : P w)
    (hok : ∀ reply u v, P u → P v → acts (.store call) (.ok reply) u v →
      (k reply).run.Meets acts rely pledge post v)
    (herror : ∀ failure v, P v →
      Meets acts rely pledge (Pure.pure (.error (OfFailure.ofFailure failure))) post v) :
    (Service.store call >>= k).run.Meets acts rely pledge post w := by
  apply Meets.store hc.stable hw
  · intro reply u v hu hacts
    obtain ⟨hpledge, hv⟩ := hc.keeps hacts hwithin hu
    exact ⟨hpledge, hok reply u v hu hv hacts⟩
  · intro failure u v hu hacts
    obtain ⟨hpledge, hv⟩ := hc.keeps hacts hwithin hu
    exact ⟨hpledge, herror failure v hv⟩

end

/-- Only items that are known to be taken are recorded. -/
theorem recordKnown (hc : Calm acts s rely pledge P) {known : List (Uuid × String)}
    {items : List Item}
    (hitems : ∀ i ∈ items, known.lookup i.id ≠ none → s.items i.id .pending ∧ s.mail i.id)
    (hw : P w) :
    (Engine.recordKnown known items).Meets acts rely pledge
      (fun out v => out.1 = items.filter (fun i => (known.lookup i.id).isNone) ∧ P v) w := by
  have hstable : ∀ out : List Item × TickReport, ∀ left : List Item,
      Stable rely fun v => out.1 = left ∧ P v :=
    fun out left => (stable_const _ _).and hc.stable
  induction items generalizing w with
  | nil => exact Meets.pure (hstable _ _) ⟨rfl, hw⟩
  | cons i rest ih =>
      have hrest : ∀ {u}, P u → (Engine.recordKnown known rest).Meets acts rely pledge
          (fun out v => out.1 = rest.filter (fun i => (known.lookup i.id).isNone) ∧ P v) u :=
        ih fun k hk => hitems k (List.mem_cons_of_mem i hk)
      cases hlookup : known.lookup i.id with
      | none =>
          simp only [Engine.recordKnown, hlookup, List.filter_cons, Option.isNone_none, if_true]
          apply Meets.bind
          apply (hrest hw).weaken
          intro out v hv
          rcases hv with ⟨hleft, hv⟩
          exact Meets.pure (hstable _ _) ⟨by rw [hleft], hv⟩
      | some remoteId =>
          obtain ⟨hitem, hmail⟩ := hitems i List.mem_cons_self (by simp [hlookup])
          have hfalse : (some remoteId : Option String).isNone = true ↔ False := by simp
          simp only [Engine.recordKnown, hlookup, List.filter_cons, hfalse, if_false]
          apply Meets.bind
          apply (hc.meets (Engine.asks_recordQueued (.within hitem hmail) remoteId) hw).weaken
          intro outcome u hu
          apply Meets.bind
          apply (hrest hu).weaken
          intro out v hv
          exact Meets.pure (hstable _ _) hv

theorem driveItems (hc : Calm acts s rely pledge P) {j : Job} (hcounts : s.counts j.id)
    {items : List Item} (hitems : ∀ i ∈ items, s.items i.id .pending ∧ s.mail i.id) (hw : P w) :
    (e.driveItems j items).run.Meets acts rely pledge (fun _ => P) w := by
  refine hc.serviceRequest trivial hw ?_
  intro known u v hu hv hacts
  apply Meets.lift
  apply (hc.recordKnown (fun i hi _ => hitems i hi) hv).weaken
  intro out x hx
  refine hc.meets (Engine.asks_sendLeft e hcounts (fun i hi => ?_) out.2) hx.2
  rw [hx.1] at hi
  exact hitems i (List.mem_of_mem_filter hi)

/-- A job is driven whose pending items may be worked on. -/
theorem drive (hc : Calm acts s rely pledge P) {j : Job} (hcounts : s.counts j.id)
    (hmoves : ∀ outcome : JobStatus, outcome.IsOutcome → s.moves j.id [.running] outcome)
    (hitems : ∀ items u v,
      acts (.store (.pendingItems j.id e.settings.batchSize)) (.ok items) u v →
        ∀ i ∈ items, s.items i.id .pending ∧ s.mail i.id) (hw : P w) :
    (e.drive j).run.Meets acts rely pledge (fun _ => P) w := by
  refine hc.store trivial hw ?_ ?_
  · intro items u v hu hv hacts
    split
    · exact hc.meets (Engine.asks_finish hcounts hmoves) hv
    · exact hc.driveItems hcounts (hitems items u v hacts) hv
  · intro failure v hv
    exact Meets.pure hc.stable hv

theorem unlessStopping (hc : Calm acts s rely pledge P) (jobs : List Job) (hw : P w) :
    (Engine.unlessStopping jobs).Meets acts rely pledge
      (fun begun v => begun.Sublist jobs ∧ P v) w := by
  have hstable : ∀ begun jobs : List Job, Stable rely fun v => begun.Sublist jobs ∧ P v :=
    fun begun jobs => (stable_const _ _).and hc.stable
  induction jobs generalizing w with
  | nil => exact Meets.pure (hstable _ _) ⟨.slnil, hw⟩
  | cons j rest ih =>
      refine hc.request trivial hw ?_
      intro stopping u v hu hv hacts
      cases stopping with
      | true => exact Meets.pure (hstable _ _) ⟨List.nil_sublist _, hv⟩
      | false =>
          apply Meets.bind
          apply (ih hv).weaken
          intro begun x hx
          exact Meets.pure (hstable _ _) ⟨hx.1.cons_cons j, hx.2⟩

/-- All running jobs are driven.  What is known of them since they were listed holds on until the
first of them is begun. -/
theorem driveAll {Q : List Job → Scene → Prop} (hc : Calm acts s rely pledge P)
    (hQ : ∀ jobs, Calm acts s rely pledge (Q jobs))
    (hlisted : ∀ jobs u v, P u → P v → acts (.store (.jobsIn .running)) (.ok jobs) u v →
      (jobs.map Job.id).Nodup ∧ Q jobs v)
    (hdriven : ∀ jobs begun v, begun.Sublist jobs → (begun.map Job.id).Nodup → Q jobs v →
      (Program.forEach .free begun fun j => (e.drive j).run).Meets acts rely pledge
        (fun _ => P) v) (hw : P w) :
    e.driveAll.run.Meets acts rely pledge (fun _ => P) w := by
  refine hc.store trivial hw ?_ ?_
  · intro jobs u v hu hv hacts
    obtain ⟨hnodup, hv⟩ := hlisted jobs u v hu hv hacts
    apply Meets.lift
    apply ((hQ jobs).unlessStopping jobs hv).weaken
    intro begun x hx
    apply Meets.lift
    apply (hdriven jobs begun x hx.1 ((hx.1.map Job.id).nodup hnodup) hx.2).weaken
    intro reports y hy
    exact Meets.pure hc.stable hy
  · intro failure v hv
    exact Meets.pure hc.stable hv

end Calm

/-- The jobs that are listed are told apart by their identifiers. -/
theorem Surroundings.nodup_of_listed {around : Surroundings} {actor : Actor} {u v : Scene}
    {jobs : List Job} {status : JobStatus} (hu : u.tables.IsWellFormed)
    (hacts : around.acts actor (.store (.jobsIn status)) (.ok jobs) u v) :
    (jobs.map Job.id).Nodup := by
  obtain ⟨now, hreply, -⟩ := acts_ok hacts
  rw [hreply]
  exact Tables.jobsIn_nodup hu status

section Ticks

variable {e : Engine} {acts : Acts Scene} {rely pledge : Scene → Scene → Prop}
  {P : Scene → Prop} {w : Scene}

/-- A part of a tick keeps what it keeps, even if it goes wrong. -/
theorem Program.Meets.reported (hP : Stable rely P) {part : Service String TickReport}
    (hpart : part.run.Meets acts rely pledge (fun _ => P) w) :
    (Engine.reported part).Meets acts rely pledge (fun _ => P) w :=
  Meets.bind (hpart.weaken fun _ _ hv => Meets.pure hP hv)

/-- A tick keeps what each of its parts keeps. -/
theorem Program.Meets.tick (hP : Stable rely P)
    (hpromote : ∀ v, P v → Engine.promote.run.Meets acts rely pledge (fun _ => P) v)
    (hreconcile : ∀ v, P v → e.reconcile.run.Meets acts rely pledge (fun _ => P) v)
    (hdrive : ∀ v, P v → e.driveAll.run.Meets acts rely pledge (fun _ => P) v) (hw : P w) :
    e.tick.Meets acts rely pledge (fun _ => P) w := by
  apply Meets.bind
  apply (Meets.reported hP (hpromote w hw)).weaken
  intro promoted u hu
  apply Meets.bind
  apply (Meets.reported hP (hreconcile u hu)).weaken
  intro reconciled v hv
  apply Meets.bind
  apply (Meets.reported hP (hdrive v hv)).weaken
  intro driven x hx
  exact Meets.pure hP hx

end Ticks

end Mailroom
