import Mailroom.Proofs.Concurrency.Calm
import Mailroom.Proofs.Jobs.Ledger
import Mailroom.Proofs.Jobs.Moves

/-!
The balance of a job: its counts are those of its items, and if it has finished, its status is the
outcome of these counts.  Main statements: requests that have nothing to do with a job leave its
balance as it is, and so do those that neither touch its items nor finish it.
-/

namespace Mailroom

/-- The items of a job are those with certain identifiers. -/
def Owns (job : Uuid) (ids : List Uuid) (s : Scene) : Prop :=
  ∀ i ∈ s.tables.items, i.jobId = job ↔ i.id ∈ ids

/-- What is known all along: the ledger is in order, and which items are a job's. -/
def IsKnown (job : Uuid) (ids : List Uuid) (s : Scene) : Prop := InOrder s ∧ Owns job ids s

/-- The counts of a job are those of its items, and its outcome is theirs. -/
structure Balanced (job : Uuid) (s : Scene) : Prop where
  counted : ∀ j, s.tables.job? job = some j → j.stats = s.tables.statsOf job
  concluded : ∀ j outcome, s.tables.job? job = some j → j.status = .known outcome →
    outcome.IsOutcome → (s.tables.statsOf job).outcome = some outcome

theorem exists_owns {s : Scene} (hs : s.tables.IsWellFormed) (job : Uuid) :
    ∃ ids, Owns job ids s := by
  refine ⟨(s.tables.itemsOf job).map Item.id, fun i hi => ⟨fun hjob => ?_, fun hid => ?_⟩⟩
  · exact List.mem_map_of_mem (Tables.mem_itemsOf.2 ⟨hi, hjob⟩)
  · obtain ⟨k, hk, hkid⟩ := List.mem_map.1 hid
    obtain ⟨hk, hjob⟩ := Tables.mem_itemsOf.1 hk
    rwa [← List.inj_on_of_nodup_map hs.items_nodup hk hi hkid]

variable {around : Surroundings} {actor : Actor} {effect : Effect} {answer : effect.Answer}
  {u v : Scene} {job : Uuid} {ids : List Uuid} {s : Scope}

theorem Owns.back (hu : u.tables.IsWellFormed) (hacts : around.acts actor effect answer u v)
    (hv : Owns job ids v) : Owns job ids u := by
  intro i hi
  rcases Surroundings.acts_tables hacts with htables | ⟨call, now, -, htables⟩
  · exact hv i (htables ▸ hi)
  · have hmem : call.onItem now i ∈ v.tables.items := by
      rw [htables, Tables.items_serve hu]
      exact List.mem_append_left _ (List.mem_map_of_mem hi)
    simpa using hv _ hmem

theorem StoreCall.status_onItem {now : Timestamp} {c : StoreCall} {i : Item}
    (hwithin : (Effect.store c).Within s) (hitem : ∀ source, ¬ s.items i.id source)
    (hrenews : ¬ s.renews i.jobId) : (c.onItem now i).status = i.status := by
  cases c with
  | checkItems ids =>
      simp only [onItem]
      split <;> rfl
  | queueItem id remoteId =>
      have hne : i.id ≠ id := fun h => hitem .pending (h ▸ hwithin)
      simp [onItem, Tables.isItemIn, hne]
  | failItem id source error =>
      have hne : i.id ≠ id := fun h => hitem source (h ▸ hwithin)
      simp [onItem, Tables.isItemIn, hne]
  | confirmItem id =>
      have hne : i.id ≠ id := fun h => hitem .queued (h ▸ hwithin)
      simp [onItem, Tables.isItemIn, hne]
  | resetFailed job =>
      have hne : i.jobId ≠ job := fun h => hrenews (h ▸ hwithin)
      simp [onItem, Tables.isFailure, hne]
  | _ => rfl

theorem StoreCall.onJob_eq_self {t : Tables} {now : Timestamp} {c : StoreCall} {j : Job}
    (hwithin : (Effect.store c).Within s) (hmoves : ∀ sources target, ¬ s.moves j.id sources target)
    (hcounts : ¬ s.counts j.id) : c.onJob t now j = j := by
  cases c with
  | moveJob id sources target =>
      have hne : j.id ≠ id := fun h => hmoves sources target (h ▸ hwithin)
      simp [onJob, hne]
  | refreshStats id =>
      have hne : j.id ≠ id := fun h => hcounts (h ▸ hwithin)
      simp [onJob, hne]
  | _ => rfl

theorem StoreCall.status_onJob {t : Tables} {now : Timestamp} {c : StoreCall} {j : Job}
    (hwithin : (Effect.store c).Within s)
    (hmoves : ∀ sources target, ¬ s.moves j.id sources target) :
    (c.onJob t now j).status = j.status := by
  rcases c.onJob_cases t now j with ⟨sources, target, rfl, -, -⟩ | ⟨hsame, -⟩
  · exact absurd hwithin (hmoves sources target)
  · exact hsame

/-- The statuses of a job's items stay as they are. -/
theorem statuses_serve {now : Timestamp} {t : Tables} {c : StoreCall} (ht : t.IsWellFormed)
    (howns : ∀ i ∈ t.items, i.jobId = job ↔ i.id ∈ ids)
    (hitems : ∀ id ∈ ids, ∀ source, ¬ s.items id source) (hrenews : ¬ s.renews job)
    (hwithin : (Effect.store c).Within s)
    (hnew : ((c.newItems t now).filter fun i => i.jobId == job) = []) :
    (((t.serve now c).2).itemsOf job).map Item.status = (t.itemsOf job).map Item.status := by
  rw [Tables.itemsOf_serve ht, hnew, List.append_nil, List.map_map]
  apply List.map_congr_left
  intro i hi
  obtain ⟨hi, hjob⟩ := Tables.mem_itemsOf.1 hi
  exact StoreCall.status_onItem hwithin (hitems i.id ((howns i hi).1 hjob)) (hjob ▸ hrenews)

theorem Tables.statsOf_congr {t t' : Tables}
    (h : (t'.itemsOf job).map Item.status = (t.itemsOf job).map Item.status) :
    t'.statsOf job = t.statsOf job := by
  rw [Tables.statsOf, h, Tables.statsOf]

/-- All may be written but a job and the statuses of its items, and no job is made. -/
def Scope.beside (job : Uuid) (ids : List Uuid) : Scope where
  items id _ := id ∉ ids
  mail _ := True
  stamps _ := True
  renews id := id ≠ job
  moves id _ _ := id ≠ job
  counts id := id ≠ job
  creates _ := False

/-- A step leaves a job and the statuses of its items as they are. -/
structure Steady (job : Uuid) (u v : Scene) : Prop where
  row : v.tables.job? job = u.tables.job? job
  statuses : (v.tables.itemsOf job).map Item.status = (u.tables.itemsOf job).map Item.status

theorem Steady.statsOf (h : Steady job u v) : v.tables.statsOf job = u.tables.statsOf job :=
  Tables.statsOf_congr h.statuses

theorem Balanced.stable : Stable (Steady job) (Balanced job) := by
  intro u v hu hsteady
  refine ⟨fun j hj => ?_, fun j outcome hj hstatus houtcome => ?_⟩
  · rw [hsteady.statsOf]
    exact hu.counted j (hsteady.row ▸ hj)
  · rw [hsteady.statsOf]
    exact hu.concluded j outcome (hsteady.row ▸ hj) hstatus houtcome

theorem steady_of_tables_eq (htables : v.tables = u.tables) : Steady job u v := by
  constructor <;> rw [htables]

theorem job?_serve_of_none {now : Timestamp} {t : Tables} {c : StoreCall} (ht : t.IsWellFormed)
    (hnone : t.job? job = none) (hnew : c.newJobs t now = []) :
    (t.serve now c).2.job? job = none := by
  have hnot : ∀ j ∈ t.jobs, ¬ j.id = job := by simpa [Tables.job?] using hnone
  simpa [Tables.job?, Tables.jobs_serve ht, hnew] using hnot

theorem steady_of_within (hu : IsKnown job ids u) (hacts : around.acts actor effect answer u v)
    (hwithin : effect.Within (.beside job ids)) : Steady job u v := by
  rcases Surroundings.acts_tables hacts with htables | ⟨call, now, rfl | rfl, htables⟩
  · exact steady_of_tables_eq htables
  · have ht := hu.1.wellFormed
    have hnew : call.newJobs u.tables now = [] ∧ call.newItems u.tables now = [] := by
      cases call with
      | createJob n items => exact absurd hwithin id
      | _ => exact ⟨rfl, rfl⟩
    constructor
    · cases hj : u.tables.job? job with
      | none => rw [htables, job?_serve_of_none ht hj hnew.1]
      | some j =>
          obtain ⟨-, rfl⟩ := (Tables.job?_eq_some_iff ht).1 hj
          rw [htables, Tables.job?_serve_of_some now ht call hj]
          rw [StoreCall.onJob_eq_self hwithin (fun _ _ h => h rfl) fun h => h rfl]
    · rw [htables]
      refine statuses_serve ht hu.2 ?_ ?_ hwithin ?_
      · exact fun id hid source h => h hid
      · exact fun h => h rfl
      · rw [hnew.2, List.filter_nil]
  · exact absurd hwithin id

/-- A job may be counted, moved to a status that is no outcome, or made in one; nothing happens to
its items. -/
def Scope.gentle (job : Uuid) (ids : List Uuid) : Scope where
  items id _ := id ∉ ids
  mail _ := True
  stamps _ := True
  renews id := id ≠ job
  moves id _ target := id ≠ job ∨ ¬ target.IsOutcome
  counts _ := True
  creates status := ¬ status.IsOutcome

theorem Balanced.of_job? {c : StoreCall} {now : Timestamp} {j : Job}
    (hu : Balanced j.id u) (hj : u.tables.job? j.id = some j)
    (hv : v.tables.job? j.id = some (c.onJob u.tables now j))
    (hstats : v.tables.statsOf j.id = u.tables.statsOf j.id)
    (hwithin : (Effect.store c).Within (.gentle j.id ids)) : Balanced j.id v := by
  have hcounted := hu.counted j hj
  refine ⟨fun k hk => ?_, fun k outcome hk hstatus houtcome => ?_⟩
  · obtain rfl := Option.some.inj (hv.symm.trans hk)
    rw [hstats]
    cases c with
    | moveJob id sources target =>
        simp only [StoreCall.onJob]
        split <;> exact hcounted
    | refreshStats id =>
        simp only [StoreCall.onJob]
        split
        · rename_i hid
          rw [beq_iff_eq] at hid
          rw [hid]
        · exact hcounted
    | _ => exact hcounted
  · obtain rfl := Option.some.inj (hv.symm.trans hk)
    rw [hstats]
    refine hu.concluded j outcome hj ?_ houtcome
    cases c with
    | moveJob id sources target =>
        simp only [StoreCall.onJob] at hstatus
        split at hstatus
        · rename_i hleaves
          simp only [Bool.and_eq_true, beq_iff_eq] at hleaves
          obtain rfl : target = outcome := by
            simpa [Tables.movedTo] using hstatus
          rcases hwithin with hother | hunfinished
          · exact absurd hleaves.1.symm hother
          · exact absurd houtcome hunfinished
        · exact hstatus
    | refreshStats id =>
        simp only [StoreCall.onJob] at hstatus
        split at hstatus <;> exact hstatus
    | _ => exact hstatus

/-- A new job is counted rightly, and it has not finished. -/
theorem Balanced.of_created {n : NewJob} {items : List NewItem} {now : Timestamp}
    (hu : InOrder u) (hjob : u.tables.job? job = none)
    (htables : v.tables = (u.tables.serve now (.createJob n items)).2)
    (hstatus : ¬ n.status.IsOutcome) : Balanced job v := by
  have ht := hu.wellFormed
  have hv : v.tables.IsWellFormed := htables ▸ ht.serve _
  have hrow : ∀ j, v.tables.job? job = some j → j = (u.tables.createJob n items now).1 := by
    intro j hj
    rw [htables] at hj
    rcases Tables.job?_serve_cases ht _ hj with ⟨k, hk, -⟩ | ⟨-, hnew⟩
    · rw [hjob] at hk
      cases hk
    · exact List.mem_singleton.1 hnew
  refine ⟨fun j hj => ?_, fun j outcome hj hknown houtcome => ?_⟩
  · obtain ⟨-, hid⟩ := (Tables.job?_eq_some_iff hv).1 hj
    obtain rfl := hrow j hj
    have hissued : job = .issued u.tables.issued := hid.symm
    have hitems : v.tables.itemsOf job =
        Tables.newItems (.issued u.tables.issued) now (u.tables.issued + 1) items := by
      rw [htables, Tables.itemsOf_serve ht, hissued, hu.itemsOf_issued,
        Tables.newItemsOf_eq_self]
      rfl
    have hpending : ∀ i ∈ v.tables.itemsOf job, i.status = .known .pending := by
      intro i hi
      rw [hitems] at hi
      exact (Tables.mem_newItems hi).2.1
    have hcount : ∀ status : ItemStatus, status ≠ .pending → v.tables.countOf job status = 0 := by
      intro status hne
      apply List.countP_eq_zero.2
      intro i hi
      rw [hpending i hi]
      simpa using fun h => hne h.symm
    have hall : v.tables.countOf job .pending = (v.tables.itemsOf job).length :=
      List.countP_eq_length.2 fun i hi => by simp [hpending i hi]
    rw [Tables.statsOf_eq, hall, hcount .queued (by decide), hcount .sent (by decide),
      hcount .failed (by decide), hitems, Tables.length_newItems]
    rfl
  · obtain rfl := hrow j hj
    have hsame : n.status = outcome := by simpa [Tables.createJob] using hknown
    exact absurd (hsame ▸ houtcome) hstatus

/-- A gentle request keeps a job balanced. -/
theorem Balanced.of_within (hu : IsKnown job ids u) (hbalanced : Balanced job u)
    (hacts : around.acts actor effect answer u v)
    (hwithin : effect.Within (.gentle job ids)) : Balanced job v := by
  rcases Surroundings.acts_tables hacts with htables | ⟨call, now, rfl | rfl, htables⟩
  · exact Balanced.stable hbalanced (steady_of_tables_eq htables)
  · have ht := hu.1.wellFormed
    cases hj : u.tables.job? job with
    | some j =>
        obtain ⟨hmem, rfl⟩ := (Tables.job?_eq_some_iff ht).1 hj
        have hrow := Tables.job?_serve_of_some now ht call hj
        refine hbalanced.of_job? hj (htables ▸ hrow) ?_ hwithin
        rw [htables]
        refine Tables.statsOf_congr (statuses_serve ht hu.2 ?_ ?_ hwithin ?_)
        · exact fun id hid source h => h hid
        · exact fun h => h rfl
        · exact Tables.newItemsOf_eq_nil (Tables.id_ne_issued ht hmem)
    | none =>
        cases call with
        | createJob n items => exact Balanced.of_created hu.1 hj htables hwithin
        | _ =>
            refine ⟨fun k hk => ?_, fun k outcome hk => ?_⟩ <;>
              · rw [htables, job?_serve_of_none ht hj rfl] at hk
                cases hk
  · exact absurd hwithin id

end Mailroom
