import Mathlib.Algebra.BigOperators.Group.List.Basic
import Mailroom.Proofs.Concurrency.Scope
import Mailroom.Proofs.Concurrency.Spending

/-!
What a tick may send of a job.  Every message of one of the job's items has the same price, and all
others are free.  Main statement: a tick sends at most one batch of the job's items, and nothing if
the job is not running when the engine lists the running jobs.
-/

namespace Mailroom

open Engine (jobHeader itemHeader)
open Program (Asks Spends)
open Service (asks_bind asks_store asks_request asks_pure asks_found asks_lift)

/-- A message of one of some items costs one, and all else is free. -/
def postage (ids : List Uuid) : Effect → Nat
  | .mta _ (.submit message) =>
      if ids.any fun id => message.headers.get? itemHeader == some id.display then 1 else 0
  | _ => 0

/-- The store lists pending items up to the limit, those of a job as its own; and it lists running
jobs once, but not the job if it is idle. -/
def listing (job : Uuid) (ids : List Uuid) (idle : Prop) : Surroundings
  | .store (.pendingItems id limit), .ok items =>
      items.length ≤ limit.toNat ∧ ∀ i ∈ items, i.id ∈ ids ↔ id = job
  | .store (.jobsIn .running), .ok jobs =>
      (jobs.map Job.id).Nodup ∧ (idle → ∀ j ∈ jobs, j.id ≠ job)
  | _, _ => True

/-- A program sends no more than so many messages of a job's items. -/
abbrev SendsAtMost (job : Uuid) (ids : List Uuid) (idle : Prop) {α : Type} (p : Program α)
    (n : Nat) (post : α → Prop) : Prop :=
  p.Spends (postage ids) (listing job ids idle) n post

/-- All may be written, but some items have no messages sent. -/
def Scope.unmailed (ids : List Uuid) : Scope where
  items _ _ := True
  mail id := id ∉ ids
  stamps _ := True
  renews _ := True
  moves _ _ _ := True
  counts _ := True
  creates _ := True

variable {e : Engine} {job : Uuid} {ids : List Uuid} {idle : Prop} {α β : Type}

theorem postage_of_unmailed {effect : Effect} (h : effect.Within (.unmailed ids)) :
    postage ids effect = 0 := by
  cases effect with
  | mta server call =>
      cases call with
      | submit message =>
          have hnone : ids.any (fun id => message.headers.get? itemHeader == some id.display) =
              false := by
            rw [List.any_eq_false]
            intro id hid hheader
            exact h id (by simpa using hheader) hid
          simp [postage, hnone]
      | _ => rfl
  | _ => rfl

/-- The requests that record an item as taken are free. -/
theorem records_free (ids : List Uuid) (id : Uuid) :
    Engine.Records (fun effect => postage ids effect = 0) id :=
  ⟨fun _ => rfl, fun _ => rfl, fun _ => rfl, rfl⟩

theorem sends_nothing {p : Program α} (hp : Asks (Effect.Within (.unmailed ids)) p) :
    SendsAtMost job ids idle p 0 fun _ => True :=
  Program.spends_of_asks (hp.mono fun _ h => postage_of_unmailed h) 0

/-- What is free may come before what has a price. -/
theorem sends_next {p : Program α} {f : α → Program β} {n : Nat} {post : α → Prop}
    {post' : β → Prop} (hp : SendsAtMost job ids idle p 0 post)
    (hf : ∀ a, post a → SendsAtMost job ids idle (f a) n post') :
    SendsAtMost job ids idle (p >>= f) n post' := by
  simpa using Program.Spends.bind (hp.weaken hf)

theorem sends_after {p : Program α} {f : α → Program β} {n : Nat} {post : β → Prop}
    (hp : Asks (Effect.Within (.unmailed ids)) p)
    (hf : ∀ a, SendsAtMost job ids idle (f a) n post) :
    SendsAtMost job ids idle (p >>= f) n post :=
  sends_next (sends_nothing hp) fun a _ => hf a

theorem sends_before {p : Program α} {f : α → Program β} {n : Nat} {post : α → Prop}
    (hp : SendsAtMost job ids idle p n post)
    (hf : ∀ a, post a → SendsAtMost job ids idle (f a) 0 fun _ => True) :
    SendsAtMost job ids idle (p >>= f) n fun _ => True :=
  Program.Spends.bind (hp.weaken hf)

theorem sends_after_service {ε : Type} {x : Service ε α} {f : α → Service ε β} {n : Nat}
    (hx : Asks (Effect.Within (.unmailed ids)) x.run)
    (hf : ∀ a, SendsAtMost job ids idle (f a).run n fun _ => True) :
    SendsAtMost job ids idle (x >>= f).run n fun _ => True := by
  apply sends_after hx
  intro result
  cases result with
  | ok a => exact hf a
  | error error => trivial

theorem sends_before_lift {ε : Type} {p : Program α} {k : α → Service ε β} {n : Nat}
    {post : α → Prop} (hp : SendsAtMost job ids idle p n post)
    (hk : ∀ a, post a → SendsAtMost job ids idle (k a).run 0 fun _ => True) :
    SendsAtMost job ids idle (ExceptT.lift p >>= k).run n fun _ => True :=
  Program.Spends.lift (hp.weaken hk)

theorem sends_after_lift {ε : Type} {p : Program α} {k : α → Service ε β} {n : Nat}
    {post : α → Prop} (hp : SendsAtMost job ids idle p 0 post)
    (hk : ∀ a, post a → SendsAtMost job ids idle (k a).run n fun _ => True) :
    SendsAtMost job ids idle (ExceptT.lift p >>= k).run n fun _ => True := by
  simpa using Program.Spends.lift (hp.weaken hk)

theorem sends_after_store {call : StoreCall} {k : call.Reply → Service String α} {n : Nat}
    (hk : ∀ reply, listing job ids idle (.store call) (.ok reply) →
      SendsAtMost job ids idle (k reply).run n fun _ => True) :
    SendsAtMost job ids idle (Service.store call >>= k).run n fun _ => True := by
  have hfree : postage ids (.store call) + n = n := Nat.zero_add n
  exact hfree ▸ Program.Spends.store hk fun _ => trivial

namespace Engine

variable (e)

/-- Sending an item offers its server at most one message. -/
theorem sends_sendItem (c : JobContext) (i : Item) :
    SendsAtMost job ids idle (e.sendItem c i).run 1 fun _ => True := by
  refine sends_after_service (asks_store trivial) fun reply => ?_
  refine sends_after_service (asks_found _ reply) fun r => ?_
  refine sends_after_service (asks_content c i r) fun content => ?_
  split
  · exact trivial
  · refine ⟨0, ?_, fun answer _ => ?_⟩
    · simp only [postage]
      split <;> omega
    · cases answer <;> trivial

theorem sends_dispatchItem (context : Except String JobContext) (i : Item) :
    SendsAtMost job ids idle (e.dispatchItem context i) 1 fun _ => True := by
  have hattempt : SendsAtMost job ids idle (e.attempt context i) 1 fun _ => True := by
    cases context with
    | ok c => exact sends_sendItem e c i
    | error text => trivial
  refine sends_before hattempt fun sent _ => ?_
  cases sent with
  | ok remoteId =>
      exact Program.spends_of_asks (asks_recordQueued (records_free ids i.id) remoteId) 0
  | error text => exact sends_after ⟨trivial, fun _ => trivial⟩ fun _ => trivial

/-- Items that are left may be sent one by one. -/
theorem sends_sendLeft (j : Job) (left : List Item) (recorded : TickReport) :
    SendsAtMost job ids idle (e.sendLeft j left recorded).run left.length fun _ => True := by
  unfold sendLeft
  split
  · exact sends_after_service (asks_store trivial) fun _ => trivial
  · refine sends_after_service (asks_lift (asks_loadContext j)) fun context => ?_
    have hsum : (left.map fun _ => 1).sum = left.length := by simp
    have hall : SendsAtMost job ids idle (.forEach .permitted left (e.dispatchItem context))
        left.length fun _ => True :=
      hsum ▸ Program.Spends.forEach (fun _ => 1) fun i _ => sends_dispatchItem e context i
    exact sends_before_lift hall fun outcomes _ =>
      sends_after_service (asks_store trivial) fun _ => trivial

theorem sends_recordKnown (known : List (Uuid × String)) (items : List Item) :
    SendsAtMost job ids idle (recordKnown known items) 0 fun out => out.1.Sublist items := by
  induction items with
  | nil => exact List.Sublist.refl []
  | cons i rest ih =>
      unfold recordKnown
      split
      · exact sends_next ih fun out hout => hout.cons_cons i
      · rename_i remoteId _
        have hrecord : SendsAtMost job ids idle (recordQueued i.id remoteId) 0 fun _ => True :=
          Program.spends_of_asks (asks_recordQueued (records_free ids i.id) remoteId) 0
        refine sends_next hrecord fun outcome _ => ?_
        exact sends_next ih fun out hout => hout.cons i

theorem sends_driveItems (j : Job) (items : List Item) :
    SendsAtMost job ids idle (e.driveItems j items).run items.length fun _ => True := by
  refine sends_after_service (asks_request trivial) fun known => ?_
  refine sends_after_lift (sends_recordKnown known items) fun out hout => ?_
  exact (sends_sendLeft e j out.1 out.2).le hout.length_le

/-- Items of other jobs are free. -/
theorem sends_driveItems_aside (j : Job) {items : List Item} (hitems : ∀ i ∈ items, i.id ∉ ids) :
    SendsAtMost job ids idle (e.driveItems j items).run 0 fun _ => True := by
  refine sends_after_service (asks_request trivial) fun known => ?_
  refine sends_after_lift (sends_recordKnown known items) fun out hout => ?_
  exact sends_nothing (asks_sendLeft e trivial
    (fun i hi => ⟨trivial, hitems i (hout.subset hi)⟩) out.2)

/-- What one job may cost. -/
def share (job : Uuid) (j : Job) : Nat := if j.id = job then e.settings.batchSize.toNat else 0

theorem sends_drive (j : Job) :
    SendsAtMost job ids idle (e.drive j).run (e.share job j) fun _ => True := by
  refine sends_after_store fun items hitems => ?_
  obtain ⟨hlength, hmine⟩ := hitems
  split
  · have hfinish : Asks (Effect.Within (.unmailed ids)) (finish j).run :=
      asks_finish trivial fun _ _ => trivial
    exact (sends_nothing hfinish).le (Nat.zero_le _)
  · unfold share
    split
    · exact (sends_driveItems e j items).le hlength
    · rename_i hother
      exact sends_driveItems_aside e j fun i hi hid => hother ((hmine i hi).1 hid)

theorem sends_unlessStopping (jobs : List Job) :
    SendsAtMost job ids idle (unlessStopping jobs) 0 fun begun => begun.Sublist jobs := by
  induction jobs with
  | nil => exact List.Sublist.refl []
  | cons j rest ih =>
      refine sends_after (p := Program.request .stopping) ⟨trivial, fun _ => trivial⟩ ?_
      intro stopping
      cases stopping with
      | true => exact List.nil_sublist _
      | false => exact sends_next ih fun begun hbegun => hbegun.cons_cons j

theorem sum_share_eq_zero {jobs : List Job} (hothers : ∀ j ∈ jobs, j.id ≠ job) :
    (jobs.map (e.share job)).sum = 0 := by
  apply List.sum_eq_zero
  intro n hn
  obtain ⟨j, hj, rfl⟩ := List.mem_map.1 hn
  simp [share, hothers j hj]

/-- Each job is driven once, so that all of them cost no more than one batch. -/
theorem sum_share_le {jobs : List Job} (hnodup : (jobs.map Job.id).Nodup) :
    (jobs.map (e.share job)).sum ≤ e.settings.batchSize.toNat := by
  induction jobs with
  | nil => simp
  | cons j rest ih =>
      rw [List.map_cons, List.nodup_cons] at hnodup
      rw [List.map_cons, List.sum_cons]
      by_cases hj : j.id = job
      · have hothers : ∀ k ∈ rest, k.id ≠ job :=
          fun k hk hid => hnodup.1 (hj ▸ hid ▸ List.mem_map_of_mem hk)
        rw [e.sum_share_eq_zero hothers, share, if_pos hj, Nat.add_zero]
      · rw [share, if_neg hj, Nat.zero_add]
        exact ih hnodup.2

theorem sends_driveAll :
    SendsAtMost job ids idle e.driveAll.run e.settings.batchSize.toNat fun _ => True := by
  refine sends_after_store fun jobs hjobs => ?_
  refine sends_after_lift (sends_unlessStopping jobs) fun begun hbegun => ?_
  have hnodup : (begun.map Job.id).Nodup := (hbegun.map Job.id).nodup hjobs.1
  have hall : SendsAtMost job ids idle (.forEach .free begun fun j => (e.drive j).run)
      e.settings.batchSize.toNat fun _ => True :=
    (Program.Spends.forEach (e.share job) fun j _ => sends_drive e j).le (sum_share_le e hnodup)
  exact sends_before_lift hall fun reports _ => trivial

/-- A job that is idle is not among those that are driven. -/
theorem sends_driveAll_idle (hidle : idle) :
    SendsAtMost job ids idle e.driveAll.run 0 fun _ => True := by
  refine sends_after_store fun jobs hjobs => ?_
  refine sends_after_lift (sends_unlessStopping jobs) fun begun hbegun => ?_
  have hsum : (begun.map (e.share job)).sum = 0 :=
    e.sum_share_eq_zero fun j hj => hjobs.2 hidle j (hbegun.subset hj)
  have hall : SendsAtMost job ids idle (.forEach .free begun fun j => (e.drive j).run) 0
      fun _ => True :=
    hsum ▸ Program.Spends.forEach (e.share job) fun j _ => sends_drive e j
  exact sends_before_lift hall fun reports _ => trivial

theorem sends_tick {n : Nat} (hdriven : SendsAtMost job ids idle e.driveAll.run n fun _ => True) :
    SendsAtMost job ids idle e.tick n fun _ => True := by
  have hpromote : Asks (Effect.Within (.unmailed ids)) promote.run := asks_promote fun _ => trivial
  have hreconcile : Asks (Effect.Within (.unmailed ids)) e.reconcile.run :=
    asks_reconcile e (fun _ => trivial) (fun _ => trivial) (fun _ => trivial)
      fun _ _ _ _ _ => trivial
  refine sends_after (hpromote.bind fun _ => trivial) fun promoted => ?_
  refine sends_after (hreconcile.bind fun _ => trivial) fun reconciled => ?_
  exact sends_before (sends_before hdriven fun _ _ => trivial) fun driven _ => trivial

end Engine

end Mailroom
