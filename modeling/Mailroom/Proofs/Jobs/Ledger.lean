import Mailroom.Proofs.Concurrency.Scope
import Mailroom.Proofs.Jobs.Counts

/-!
The tables of jobs and items as a ledger.  Every item has a known status and a job, and every job
has as many items as it was made with.  Main statement: no request of the engine or an operator
changes that.
-/

namespace Mailroom

/-- The identifier of a job that was made, and the number of its items. -/
def Event.created? : Event → Option (Uuid × Nat)
  | ⟨_, .store (.createJob _ items), .ok j, _, _⟩ => some (j.id, items.length)
  | _ => none

/-- The ledger is in order. -/
structure InOrder (s : Scene) : Prop where
  wellFormed : s.tables.IsWellFormed
  known : ∀ i ∈ s.tables.items, ∃ status, i.status = .known status
  filed : ∀ i ∈ s.tables.items, ∃ j ∈ s.tables.jobs, j.id = i.jobId
  created : ∀ j ∈ s.tables.jobs,
    ∃ v ∈ s.history, v.created? = some (j.id, (s.tables.itemsOf j.id).length)

theorem inOrder_of_empty {s : Scene} (hjobs : s.tables.jobs = []) (hitems : s.tables.items = []) :
    InOrder s :=
  ⟨Tables.isWellFormed_of_empty hjobs hitems, by simp [hitems], by simp [hitems], by simp [hjobs]⟩

theorem StoreCall.onItem_known {now : Timestamp} (c : StoreCall) {i : Item}
    (hi : ∃ status, i.status = .known status) :
    ∃ status, (c.onItem now i).status = .known status := by
  cases c with
  | checkItems ids =>
      simp only [onItem]
      split <;> exact hi
  | queueItem id remoteId =>
      simp only [onItem]
      split
      · exact ⟨_, rfl⟩
      · exact hi
  | failItem id source error =>
      simp only [onItem]
      split
      · exact ⟨_, rfl⟩
      · exact hi
  | confirmItem id =>
      simp only [onItem]
      split
      · exact ⟨_, rfl⟩
      · exact hi
  | resetFailed job =>
      simp only [onItem]
      split
      · exact ⟨_, rfl⟩
      · exact hi
  | _ => exact hi

namespace Tables

variable {t : Tables} {now : Timestamp}

theorem newItemsOf_eq_nil {c : StoreCall} {job : Uuid} (hjob : job ≠ .issued t.issued) :
    ((c.newItems t now).filter fun i => i.jobId == job) = [] := by
  rw [List.filter_eq_nil_iff]
  intro i hi
  rw [(id_of_mem_callItems hi).1]
  simpa using fun h => hjob h.symm

theorem newItemsOf_eq_self (c : StoreCall) :
    ((c.newItems t now).filter fun i => i.jobId == .issued t.issued) = c.newItems t now := by
  rw [List.filter_eq_self]
  intro i hi
  simp [(id_of_mem_callItems hi).1]

theorem id_ne_issued (ht : t.IsWellFormed) {j : Job} (hj : j ∈ t.jobs) :
    j.id ≠ .issued t.issued := by
  intro h
  obtain ⟨n, hn, hid⟩ := ht.jobs_issued j hj
  have := Uuid.issued_injective (hid.symm.trans h)
  omega

end Tables

variable {around : Surroundings} {actor : Actor} {effect : Effect} {answer : effect.Answer}
  {u v : Scene}

/-- A job that is yet to come has no items. -/
theorem InOrder.itemsOf_issued (hu : InOrder u) :
    u.tables.itemsOf (.issued u.tables.issued) = [] := by
  rw [Tables.itemsOf, List.filter_eq_nil_iff]
  intro i hi
  obtain ⟨j, hj, hid⟩ := hu.filed i hi
  have hne := Tables.id_ne_issued hu.wellFormed hj
  simpa using fun h => hne (hid.trans h)

theorem InOrder.of_served {call : StoreCall} {reply : call.Reply} (hu : InOrder u)
    (hacts : around.acts actor (.store call) (.ok reply) u v) : InOrder v := by
  have hhistory := Surroundings.acts_history hacts
  obtain ⟨now, hreply, htables⟩ := Surroundings.acts_ok hacts
  have ht := hu.wellFormed
  refine ⟨Surroundings.acts_isWellFormed ht hacts, ?_, ?_, ?_⟩
  · intro i hi
    rw [htables, Tables.items_serve ht, List.mem_append, List.mem_map] at hi
    rcases hi with ⟨k, hk, rfl⟩ | hi
    · exact call.onItem_known (hu.known k hk)
    · exact ⟨.pending, (Tables.id_of_mem_callItems hi).2.1⟩
  · intro i hi
    rw [htables, Tables.items_serve ht, List.mem_append, List.mem_map] at hi
    rw [htables, Tables.jobs_serve ht]
    rcases hi with ⟨k, hk, rfl⟩ | hi
    · obtain ⟨j, hj, hid⟩ := hu.filed k hk
      exact ⟨_, List.mem_append_left _ (List.mem_map_of_mem hj), by simpa using hid⟩
    · cases call with
      | createJob n items =>
          refine ⟨_, List.mem_append_right _ List.mem_cons_self, ?_⟩
          exact (Tables.id_of_mem_callItems hi).1.symm
      | _ => cases hi
  · intro j hj
    rw [htables, Tables.jobs_serve ht, List.mem_append, List.mem_map] at hj
    rw [hhistory, htables, Tables.itemsOf_serve ht]
    rcases hj with ⟨k, hk, rfl⟩ | hj
    · obtain ⟨w, hw, hcreated⟩ := hu.created k hk
      refine ⟨w, List.mem_cons_of_mem _ hw, ?_⟩
      rw [StoreCall.onJob_id, Tables.newItemsOf_eq_nil (Tables.id_ne_issued ht hk)]
      simpa using hcreated
    · cases call with
      | createJob n items =>
          obtain rfl : j = (u.tables.createJob n items now).1 := by
            simpa [StoreCall.newJobs] using hj
          refine ⟨_, List.mem_cons_self, ?_⟩
          have hid : (u.tables.createJob n items now).1.id = .issued u.tables.issued := rfl
          rw [hid, hu.itemsOf_issued, Tables.newItemsOf_eq_self, hreply]
          simp [Event.created?, StoreCall.newItems, Tables.length_newItems, Tables.serve, hid]
      | _ => cases hj

theorem InOrder.of_tables_eq {w : Event} (hu : InOrder u) (htables : v.tables = u.tables)
    (hhistory : v.history = w :: u.history) : InOrder v := by
  refine ⟨htables ▸ hu.wellFormed, htables ▸ hu.known, htables ▸ hu.filed, ?_⟩
  rw [htables, hhistory]
  intro j hj
  obtain ⟨x, hx, hcreated⟩ := hu.created j hj
  exact ⟨x, List.mem_cons_of_mem _ hx, hcreated⟩

/-- A request that is not made in the background keeps the ledger in order. -/
theorem InOrder.acts (hu : InOrder u) (hwithin : effect.Within .all)
    (hacts : around.acts actor effect answer u v) : InOrder v := by
  have hhistory := Surroundings.acts_history hacts
  cases effect with
  | store call =>
      cases answer with
      | ok reply => exact hu.of_served hacts
      | error failure => exact hu.of_tables_eq (Surroundings.acts_error hacts) hhistory
  | storeLater call => exact absurd hwithin id
  | accepted => exact hu.of_tables_eq hacts.2.1.2.1 hhistory
  | _ => exact hu.of_tables_eq hacts.2.1.1 hhistory

theorem Office.Reachable.inOrder {e : Engine} {t : Tables} {o : Office}
    (ht : InOrder (opening t).scene) (ho : Reachable e around t o) : InOrder o.scene := by
  induction ho with
  | refl => exact ht
  | tail ho hstep ih =>
      rcases hstep.scene_eq_or_acts with hscene | ⟨actor, effect, answer, hacts⟩
      · rw [hscene]
        exact ih
      · exact ih.acts (Reachable.within_of_acts (ho.tail hstep) hacts).all hacts

end Mailroom
