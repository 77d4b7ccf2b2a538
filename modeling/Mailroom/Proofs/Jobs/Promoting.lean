import Mailroom.Proofs.Delivery.Batches

/-!
Promotion of scheduled jobs.  Main statement: the jobs that are due are set running and counted, and
all else is left as it was.
-/

namespace Mailroom

open Program (Meets)

variable {around : Surroundings} {jobs : List Job} {u v w : Scene}

/-- Some jobs were set running from one scene to another. -/
structure ArePromoted (jobs : List Job) (w v : Scene) : Prop where
  running : ∀ j ∈ jobs, v.tables.statusOf j.id = some (.known .running)
  confined : Confined (fun _ => False) (· ∈ jobs.map Job.id) w v

namespace ArePromoted

theorem nil (w : Scene) : ArePromoted [] w w := ⟨by simp, .refl _ _ w⟩

/-- The others are set running after one of them. -/
theorem cons {j : Job} (hfresh : j.id ∉ jobs.map Job.id)
    (hfirst : u.tables.statusOf j.id = some (.known .running))
    (hstep : Confined (fun _ => False) (· = j.id) w u) (hrest : ArePromoted jobs u v) :
    ArePromoted (j :: jobs) w v := by
  refine ⟨List.forall_mem_cons.2 ⟨?_, hrest.running⟩, ?_⟩
  · exact (hrest.confined.statusOf hfresh).trans hfirst
  · exact (hstep.mono (fun _ => id) fun _ => by simp +contextual).trans
      (hrest.confined.mono (fun _ => id) fun _ => List.mem_cons_of_mem j.id)

end ArePromoted

/-- Scheduled jobs that are told apart are set running in turn. -/
theorem promotes_promoteAll (hmild : around.IsMild) (hnodup : (jobs.map Job.id).Nodup)
    (hscheduled : ∀ j ∈ jobs, w.tables.statusOf j.id = some (.known .scheduled)) :
    (Engine.promoteAll jobs).run.Meets (tellingTurns around) (fun _ _ => False) (fun _ _ => True)
      (fun result v => result = .ok jobs.length ∧ ArePromoted jobs w v) w := by
  induction jobs generalizing w with
  | nil => exact Meets.pure (stable_never _) ⟨rfl, .nil w⟩
  | cons j rest ih =>
      simp only [List.map_cons, List.nodup_cons] at hnodup
      obtain ⟨hfresh, hnodup⟩ := hnodup
      obtain ⟨hfirst, hrest⟩ := List.forall_mem_cons.1 hscheduled
      refine meets_served hmild (by simp) (stable_never (· = w)) rfl ?_
      rintro now u v rfl hacts htables
      obtain ⟨hmoved, hrunning⟩ := Tables.statusOf_moveJob now .running hacts.1 hfirst
        (List.mem_singleton.2 rfl)
      rw [← htables] at hrunning
      have hstep : Confined (fun _ => False) (· = j.id) u v := .of_acts hacts.1 hacts.2.2 rfl
      have hothers : ∀ k ∈ rest, v.tables.statusOf k.id = some (.known .scheduled) := by
        intro k hk
        rw [hstep.statusOf fun hid => hfresh (hid ▸ List.mem_map_of_mem hk)]
        exact hrest k hk
      apply Meets.serviceBind
      apply (ih hnodup hothers).weaken
      rintro result x ⟨rfl, hpromoted⟩
      refine Meets.pure (stable_never _) ⟨?_, .cons hfresh hrunning hstep hpromoted⟩
      simp [hmoved, Nat.add_comm]

/-- The jobs that are due at some time are set running. -/
theorem promotes_promote (hmild : around.IsMild) (hw : w.tables.IsWellFormed) :
    Engine.promote.run.Meets (tellingTurns around) (fun _ _ => False) (fun _ _ => True)
      (fun result v => ∃ time,
        result = .ok { promoted := w.tables.jobs.countP (Tables.isDue time) } ∧
          ArePromoted (w.tables.jobs.filter (Tables.isDue time)) w v) w := by
  refine Meets.serviceRequest (stable_never (· = w)) rfl ?_
  rintro time w x rfl hacts
  refine ⟨trivial, ?_⟩
  have hread : x.tables = w.tables := hacts.2.2.2.1.1
  have hbefore : Confined (fun _ => False) (fun _ => False) w x :=
    .of_acts hacts.1 hacts.2.2 trivial
  refine meets_served hmild (by simp) (stable_never (· = x)) rfl ?_
  rintro now x y rfl hacts htables
  have hlisted : Confined (fun _ => False) (fun _ => False) x y :=
    .of_acts hacts.1 hacts.2.2 trivial
  have hsame : y.tables = w.tables := htables.trans hread
  have hdue : (x.tables.serve now (.dueJobs time)).1 =
      w.tables.jobs.filter (Tables.isDue time) := by
    rw [hread]
    rfl
  rw [hdue]
  have hnodup : ((w.tables.jobs.filter (Tables.isDue time)).map Job.id).Nodup :=
    (List.filter_sublist.map Job.id).nodup hw.jobs_nodup
  have hscheduled : ∀ j ∈ w.tables.jobs.filter (Tables.isDue time),
      y.tables.statusOf j.id = some (.known .scheduled) := by
    intro j hj
    obtain ⟨hmem, hdue⟩ := List.mem_filter.1 hj
    simp only [Tables.isDue, Bool.and_eq_true, beq_iff_eq] at hdue
    rw [hsame, Tables.statusOf_of_mem hw hmem, hdue.1]
  apply Meets.serviceBind
  apply (promotes_promoteAll hmild hnodup hscheduled).weaken
  rintro result v ⟨rfl, hpromoted⟩
  refine Meets.pure (stable_never _) ⟨time, ?_, hpromoted.running, ?_⟩
  · rw [List.countP_eq_length_filter]
  · exact ((hbefore.trans hlisted).mono (fun _ => id) fun _ => False.elim).trans hpromoted.confined

end Mailroom
