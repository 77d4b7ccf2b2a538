import Mathlib.Data.List.Nodup
import Mailroom.Store.Memory

/-!
What a call to the store in memory does to the rows of jobs and items.  Main statements: as long as
no identifier is given out twice, a call treats every row on its own and adds rows only for a new
job, and it keeps identifiers apart.
-/

namespace Mailroom

namespace Tables

variable {α κ : Type}

theorem updateFirst_append {test : α → Bool} {change : α → α} {rows : List α}
    (h : ∀ r ∈ rows, test r = false) (more : List α) :
    updateFirst test change (rows ++ more) = rows ++ updateFirst test change more := by
  induction rows with
  | nil => rfl
  | cons r rows ih =>
      have hr : test r = false := h r List.mem_cons_self
      have hrest := ih fun s hs => h s (List.mem_cons_of_mem r hs)
      simp [updateFirst, hr, hrest]

theorem updateFirst_eq_self {test : α → Bool} {change : α → α} {rows : List α}
    (h : ∀ r ∈ rows, test r = false) : updateFirst test change rows = rows := by
  simpa [updateFirst] using updateFirst_append h []

/-- Where the test holds of one key only and no key occurs twice, the first row that passes it is
the only one. -/
theorem updateFirst_eq_map {key : α → κ} {k : κ} {test : α → Bool} {change : α → α} {rows : List α}
    (hnodup : (rows.map key).Nodup) (htest : ∀ r, test r = true → key r = k) :
    updateFirst test change rows = rows.map fun r => if test r then change r else r := by
  induction rows with
  | nil => rfl
  | cons r rows ih =>
      simp only [List.map_cons, List.nodup_cons] at hnodup
      rcases hnodup with ⟨hfresh, hnodup⟩
      by_cases hr : test r = true
      · have hothers : ∀ s ∈ rows, test s = false := by
          intro s hs
          by_contra hpass
          have hkey : key s = key r := by
            rw [htest r hr, htest s (by simpa using hpass)]
          exact hfresh (hkey ▸ List.mem_map_of_mem hs)
        have hsame : rows.map (fun s => if test s then change s else s) = rows := by
          conv_rhs => rw [← List.map_id rows]
          exact List.map_congr_left fun s hs => by simp [hothers s hs]
        simp [updateFirst, hr, hsame]
      · have hfalse : test r = false := by simpa using hr
        simp [updateFirst, hfalse, ih hnodup]

theorem find?_key {key : α → κ} [DecidableEq κ] {rows : List α} (hnodup : (rows.map key).Nodup)
    {r : α} (hr : r ∈ rows) : rows.find? (fun s => key s == key r) = some r := by
  obtain ⟨s, hs⟩ : ∃ s, rows.find? (fun s => key s == key r) = some s :=
    Option.isSome_iff_exists.1 (List.find?_isSome.2 ⟨r, hr, by simp⟩)
  have hkey : key s = key r := by simpa using List.find?_some hs
  rw [hs, List.inj_on_of_nodup_map hnodup (List.mem_of_find?_eq_some hs) hr hkey]

/-- A row that shares its key with one of some rows is among them, where no key occurs twice. -/
theorem mem_of_key {key : α → κ} {rows found : List α} {r : α} (hnodup : (rows.map key).Nodup)
    (hr : r ∈ rows) (hfound : ∀ s ∈ found, s ∈ rows) (hkey : key r ∈ found.map key) :
    r ∈ found := by
  obtain ⟨s, hs, hsame⟩ := List.mem_map.1 hkey
  rwa [← List.inj_on_of_nodup_map hnodup (hfound s hs) hr hsame]

/-- No identifier of a job or of an item was given out twice. -/
structure IsWellFormed (t : Tables) : Prop where
  jobs_nodup : (t.jobs.map Job.id).Nodup
  jobs_issued : ∀ j ∈ t.jobs, ∃ n, n < t.issued ∧ j.id = .issued n
  items_nodup : (t.items.map Item.id).Nodup
  items_issued : ∀ i ∈ t.items, ∃ n, n < t.issued ∧ i.id = .issued n

theorem isWellFormed_of_empty {t : Tables} (hjobs : t.jobs = []) (hitems : t.items = []) :
    t.IsWellFormed := by
  constructor <;> simp [hjobs, hitems]

end Tables

namespace StoreCall

open Tables

def onItem (now : Timestamp) : StoreCall → Item → Item
  | checkItems ids, i => if ids.contains i.id then { i with checkedAt := some now } else i
  | queueItem id remoteId, i =>
      if isItemIn id .pending i then
        { i with
          status := .known .queued, remoteId := some remoteId, lastError := none, updatedAt := now }
      else i
  | failItem id source error, i =>
      if isItemIn id source i then
        { i with status := .known .failed, lastError := some error, updatedAt := now }
      else i
  | confirmItem id, i =>
      if isItemIn id .queued i then { i with status := .known .sent, updatedAt := now } else i
  | resetFailed id, i => if isFailure id i then renewed now i else i
  | _, i => i

def newItems (t : Tables) (now : Timestamp) : StoreCall → List Item
  | createJob _ items => Tables.newItems (.issued t.issued) now (t.issued + 1) items
  | _ => []

def onJob (t : Tables) (now : Timestamp) : StoreCall → Job → Job
  | moveJob id sources target, j =>
      if j.id == id && canLeave sources j then movedTo target now j else j
  | refreshStats id, j =>
      if j.id == id then { j with stats := t.statsOf id, updatedAt := now } else j
  | _, j => j

def newJobs (t : Tables) (now : Timestamp) : StoreCall → List Job
  | createJob n items => [(t.createJob n items now).1]
  | _ => []

@[simp] theorem onItem_id (now : Timestamp) (c : StoreCall) (i : Item) :
    (c.onItem now i).id = i.id := by
  cases c <;> simp only [onItem] <;> (try split) <;> rfl

@[simp] theorem onItem_jobId (now : Timestamp) (c : StoreCall) (i : Item) :
    (c.onItem now i).jobId = i.jobId := by
  cases c <;> simp only [onItem] <;> (try split) <;> rfl

@[simp] theorem onJob_id (t : Tables) (now : Timestamp) (c : StoreCall) (j : Job) :
    (c.onJob t now j).id = j.id := by
  cases c <;> simp only [onJob] <;> (try split) <;> rfl

/-- A call moves a job, or it leaves the job's status and instants as they are. -/
theorem onJob_cases (t : Tables) (now : Timestamp) (c : StoreCall) (j : Job) :
    (∃ sources target, c = .moveJob j.id sources target ∧ canLeave sources j = true ∧
        c.onJob t now j = movedTo target now j) ∨
      (c.onJob t now j).status = j.status ∧ (c.onJob t now j).startedAt = j.startedAt ∧
        (c.onJob t now j).completedAt = j.completedAt := by
  cases c with
  | moveJob id sources target =>
      by_cases hmoves : j.id = id ∧ canLeave sources j = true
      · obtain ⟨rfl, hleaves⟩ := hmoves
        exact .inl ⟨sources, target, rfl, hleaves, by simp [onJob, hleaves]⟩
      · have hstays : onJob t now (.moveJob id sources target) j = j := by
          simpa [onJob] using fun hid hleaves => absurd ⟨hid, hleaves⟩ hmoves
        rw [hstays]
        exact .inr ⟨rfl, rfl, rfl⟩
  | refreshStats id =>
      refine .inr ?_
      simp only [onJob]
      split <;> exact ⟨rfl, rfl, rfl⟩
  | _ => exact .inr ⟨rfl, rfl, rfl⟩

end StoreCall

namespace Tables

variable {t : Tables} {now : Timestamp}

theorem item?_eq_some_iff (ht : t.IsWellFormed) {id : Uuid} {i : Item} :
    t.item? id = some i ↔ i ∈ t.items ∧ i.id = id := by
  constructor
  · intro h
    exact ⟨List.mem_of_find?_eq_some h, by simpa using List.find?_some h⟩
  · rintro ⟨hi, rfl⟩
    exact find?_key ht.items_nodup hi

theorem job?_eq_some_iff (ht : t.IsWellFormed) {id : Uuid} {j : Job} :
    t.job? id = some j ↔ j ∈ t.jobs ∧ j.id = id := by
  constructor
  · intro h
    exact ⟨List.mem_of_find?_eq_some h, by simpa using List.find?_some h⟩
  · rintro ⟨hj, rfl⟩
    exact find?_key ht.jobs_nodup hj

theorem items_moveItem (ht : t.IsWellFormed) (id : Uuid) (source : ItemStatus)
    (change : Item → Item) :
    (t.moveItem id source change now).2.items =
      t.items.map fun i =>
        if isItemIn id source i then { change i with updatedAt := now } else i := by
  have htest : ∀ i, isItemIn id source i = true → i.id = id := by
    intro i hi
    simp only [isItemIn, Bool.and_eq_true, beq_iff_eq] at hi
    exact hi.1
  rw [← updateFirst_eq_map (k := id) ht.items_nodup htest, moveItem]
  split
  · rfl
  · rename_i hnone
    refine (updateFirst_eq_self fun i hi => ?_).symm
    simpa using fun h => hnone (List.any_eq_true.2 ⟨i, hi, h⟩)

theorem jobs_updateJob (ht : t.IsWellFormed) (id : Uuid) (change : Job → Job) :
    (t.updateJob id change).jobs = t.jobs.map fun j => if j.id == id then change j else j :=
  updateFirst_eq_map (k := id) ht.jobs_nodup fun j hj => by simpa using hj

/-- A call treats every item on its own, and adds items only for a new job. -/
theorem items_serve (ht : t.IsWellFormed) (c : StoreCall) :
    (t.serve now c).2.items = (t.items.map fun i => c.onItem now i) ++ c.newItems t now := by
  cases c with
  | queueItem id remoteId =>
      simp only [serve, queueItem, items_moveItem ht, StoreCall.onItem, StoreCall.newItems,
        List.append_nil]
  | failItem id source error =>
      simp only [serve, failItem, items_moveItem ht, StoreCall.onItem, StoreCall.newItems,
        List.append_nil]
  | confirmItem id =>
      simp only [serve, confirmItem, items_moveItem ht, StoreCall.onItem, StoreCall.newItems,
        List.append_nil]
  | updateDomain id patch =>
      simp only [serve, updateDomain]
      split <;> simp [StoreCall.onItem, StoreCall.newItems]
  | putDeployment domain server status hash error =>
      simp only [serve, putDeployment]
      split <;> simp [StoreCall.onItem, StoreCall.newItems]
  | finishSend id status remoteId error =>
      simp only [serve, finishSend]
      split <;> simp [StoreCall.onItem, StoreCall.newItems]
  | moveJob id sources target =>
      simp only [serve, moveJob]
      split <;> simp [StoreCall.onItem, StoreCall.newItems, updateJob]
  | _ =>
      simp [serve, StoreCall.onItem, StoreCall.newItems, createJob, checkItems, resetFailed,
        refreshStats, updateJob, dropDeployment, markOutdated, createSend, touchKey, setVariable]

/-- A call treats every job on its own, and adds one only if that is what it is for. -/
theorem jobs_serve (ht : t.IsWellFormed) (c : StoreCall) :
    (t.serve now c).2.jobs = (t.jobs.map fun j => c.onJob t now j) ++ c.newJobs t now := by
  cases c with
  | moveJob id sources target =>
      simp only [serve, moveJob, StoreCall.onJob, StoreCall.newJobs, List.append_nil]
      have hfound : ∀ j ∈ t.jobs, j.id = id → t.job? id = some j :=
        fun j hj hid => (job?_eq_some_iff ht).2 ⟨hj, hid⟩
      split
      · rename_i hnone
        conv_lhs => rw [← List.map_id t.jobs]
        apply List.map_congr_left
        intro j hj
        by_cases hid : j.id = id
        · simp only [hfound j hj hid, Option.filter] at hnone
          split at hnone
          · cases hnone
          · rename_i hstays
            simp [hstays]
        · simp [hid]
      · rename_i j hsome
        obtain ⟨hjob, hleaves⟩ := Option.filter_eq_some_iff.1 hsome
        rw [jobs_updateJob ht]
        apply List.map_congr_left
        intro k hk
        by_cases hid : k.id = id
        · obtain rfl : k = j := Option.some.inj ((hfound k hk hid).symm.trans hjob)
          simp [hleaves]
        · simp [hid]
  | refreshStats id =>
      simp only [serve, refreshStats, jobs_updateJob ht, StoreCall.onJob, StoreCall.newJobs,
        List.append_nil]
  | updateDomain id patch =>
      simp only [serve, updateDomain]
      split <;> simp [StoreCall.onJob, StoreCall.newJobs]
  | putDeployment domain server status hash error =>
      simp only [serve, putDeployment]
      split <;> simp [StoreCall.onJob, StoreCall.newJobs]
  | finishSend id status remoteId error =>
      simp only [serve, finishSend]
      split <;> simp [StoreCall.onJob, StoreCall.newJobs]
  | queueItem id remoteId =>
      simp only [serve, queueItem, moveItem]
      split <;> simp [StoreCall.onJob, StoreCall.newJobs]
  | failItem id source error =>
      simp only [serve, failItem, moveItem]
      split <;> simp [StoreCall.onJob, StoreCall.newJobs]
  | confirmItem id =>
      simp only [serve, confirmItem, moveItem]
      split <;> simp [StoreCall.onJob, StoreCall.newJobs]
  | _ =>
      simp [serve, StoreCall.onJob, StoreCall.newJobs, createJob, checkItems, resetFailed,
        dropDeployment, markOutdated, createSend, touchKey, setVariable]

theorem mem_newItems {job : Uuid} {serial : Nat} {ns : List NewItem} {i : Item}
    (hi : i ∈ newItems job now serial ns) :
    i.jobId = job ∧ i.status = .known .pending ∧
      ∃ n, serial ≤ n ∧ n < serial + ns.length ∧ i.id = .issued n := by
  induction ns generalizing serial with
  | nil => simp [newItems] at hi
  | cons n rest ih =>
      simp only [newItems, List.mem_cons] at hi
      rcases hi with rfl | hi
      · exact ⟨rfl, rfl, serial, by simp⟩
      · obtain ⟨hjob, hstatus, m, hle, hlt, hid⟩ := ih hi
        exact ⟨hjob, hstatus, m, by omega, by simp only [List.length_cons]; omega, hid⟩

theorem newItems_nodup (job : Uuid) (serial : Nat) (ns : List NewItem) :
    ((newItems job now serial ns).map Item.id).Nodup := by
  induction ns generalizing serial with
  | nil => simp [newItems]
  | cons n rest ih =>
      simp only [newItems, List.map_cons, List.nodup_cons]
      refine ⟨?_, ih (serial + 1)⟩
      intro hmem
      obtain ⟨i, hi, hid⟩ := List.mem_map.1 hmem
      obtain ⟨_, _, m, hle, _, hm⟩ := mem_newItems hi
      have := Uuid.issued_injective (hm.symm.trans hid)
      omega

theorem length_newItems (job : Uuid) (serial : Nat) (ns : List NewItem) :
    (newItems job now serial ns).length = ns.length := by
  induction ns generalizing serial with
  | nil => rfl
  | cons n rest ih => simp [newItems, ih]

theorem issued_le_serve (c : StoreCall) : t.issued ≤ (t.serve now c).2.issued := by
  cases c with
  | createJob n items =>
      simp only [serve, createJob]
      omega
  | createSend n => simp [serve, createSend]
  | updateDomain id patch =>
      simp only [serve, updateDomain]
      split <;> simp
  | putDeployment domain server status hash error =>
      simp only [serve, putDeployment]
      split <;> simp
  | finishSend id status remoteId error =>
      simp only [serve, finishSend]
      split <;> simp
  | moveJob id sources target =>
      simp only [serve, moveJob]
      split <;> simp [updateJob]
  | queueItem id remoteId =>
      simp only [serve, queueItem, moveItem]
      split <;> simp
  | failItem id source error =>
      simp only [serve, failItem, moveItem]
      split <;> simp
  | confirmItem id =>
      simp only [serve, confirmItem, moveItem]
      split <;> simp
  | _ =>
      simp [serve, dropDeployment, markOutdated, checkItems, resetFailed, refreshStats, updateJob,
        touchKey, setVariable]

theorem id_of_mem_newJobs {c : StoreCall} {j : Job} (hj : j ∈ c.newJobs t now) :
    j.id = .issued t.issued ∧ t.issued < (t.serve now c).2.issued := by
  cases c with
  | createJob n items =>
      obtain rfl : j = (t.createJob n items now).1 := by simpa [StoreCall.newJobs] using hj
      refine ⟨rfl, ?_⟩
      simp only [serve, createJob]
      omega
  | _ => simp [StoreCall.newJobs] at hj

theorem newJobs_nodup (c : StoreCall) : ((c.newJobs t now).map Job.id).Nodup := by
  cases c <;> simp [StoreCall.newJobs]

theorem id_of_mem_callItems {c : StoreCall} {i : Item} (hi : i ∈ c.newItems t now) :
    i.jobId = .issued t.issued ∧ i.status = .known .pending ∧
      ∃ n, t.issued < n ∧ n < (t.serve now c).2.issued ∧ i.id = .issued n := by
  cases c with
  | createJob n items =>
      obtain ⟨hjob, hstatus, m, hle, hlt, hid⟩ := mem_newItems hi
      refine ⟨hjob, hstatus, m, by omega, ?_, hid⟩
      simp only [serve, createJob]
      omega
  | _ => simp [StoreCall.newItems] at hi

theorem callItems_nodup (c : StoreCall) : ((c.newItems t now).map Item.id).Nodup := by
  cases c with
  | createJob n items => exact newItems_nodup _ _ _
  | _ => simp [StoreCall.newItems]

/-- A call keeps identifiers apart. -/
theorem IsWellFormed.serve (ht : t.IsWellFormed) (c : StoreCall) :
    (t.serve now c).2.IsWellFormed := by
  have hissued : t.issued ≤ (t.serve now c).2.issued := issued_le_serve c
  constructor
  · rw [jobs_serve ht, List.map_append, List.map_map]
    apply List.Nodup.append (by simpa [Function.comp_def] using ht.jobs_nodup) (newJobs_nodup c)
    intro id hold hnew
    obtain ⟨j, hj, rfl⟩ := List.mem_map.1 hnew
    obtain ⟨k, hk, hid⟩ := List.mem_map.1 hold
    obtain ⟨n, hn, hkn⟩ := ht.jobs_issued k hk
    have heq : Uuid.issued n = .issued t.issued :=
      hkn.symm.trans
        (((StoreCall.onJob_id t now c k).symm.trans hid).trans (id_of_mem_newJobs hj).1)
    have := Uuid.issued_injective heq
    omega
  · intro j hj
    rw [jobs_serve ht, List.mem_append, List.mem_map] at hj
    rcases hj with ⟨k, hk, rfl⟩ | hj
    · obtain ⟨n, hn, hkn⟩ := ht.jobs_issued k hk
      exact ⟨n, by omega, by simpa using hkn⟩
    · obtain ⟨hid, hlt⟩ := id_of_mem_newJobs hj
      exact ⟨_, hlt, hid⟩
  · rw [items_serve ht, List.map_append, List.map_map]
    refine List.Nodup.append (by simpa [Function.comp_def] using ht.items_nodup)
      (callItems_nodup c) ?_
    intro id hold hnew
    obtain ⟨i, hi, rfl⟩ := List.mem_map.1 hnew
    obtain ⟨k, hk, hid⟩ := List.mem_map.1 hold
    obtain ⟨n, hn, hkn⟩ := ht.items_issued k hk
    obtain ⟨_, _, m, hm, _, him⟩ := id_of_mem_callItems hi
    have heq : Uuid.issued n = .issued m :=
      hkn.symm.trans (((StoreCall.onItem_id now c k).symm.trans hid).trans him)
    have := Uuid.issued_injective heq
    omega
  · intro i hi
    rw [items_serve ht, List.mem_append, List.mem_map] at hi
    rcases hi with ⟨k, hk, rfl⟩ | hi
    · obtain ⟨n, hn, hkn⟩ := ht.items_issued k hk
      exact ⟨n, by omega, by simpa using hkn⟩
    · obtain ⟨_, _, n, _, hlt, hid⟩ := id_of_mem_callItems hi
      exact ⟨n, hlt, hid⟩

theorem item?_serve_of_some (now : Timestamp) (ht : t.IsWellFormed) (c : StoreCall) {id : Uuid}
    {i : Item} (hi : t.item? id = some i) : (t.serve now c).2.item? id = some (c.onItem now i) := by
  obtain ⟨hmem, rfl⟩ := (item?_eq_some_iff ht).1 hi
  rw [item?_eq_some_iff (ht.serve c), items_serve ht]
  exact ⟨List.mem_append_left _ (List.mem_map_of_mem hmem), by simp⟩

theorem job?_serve_of_some (now : Timestamp) (ht : t.IsWellFormed) (c : StoreCall) {id : Uuid}
    {j : Job} (hj : t.job? id = some j) : (t.serve now c).2.job? id = some (c.onJob t now j) := by
  obtain ⟨hmem, rfl⟩ := (job?_eq_some_iff ht).1 hj
  rw [job?_eq_some_iff (ht.serve c), jobs_serve ht]
  exact ⟨List.mem_append_left _ (List.mem_map_of_mem hmem), by simp⟩

/-- A row of a job was there before, or the call is for it. -/
theorem job?_serve_cases (ht : t.IsWellFormed) (c : StoreCall) {id : Uuid} {j : Job}
    (hj : (t.serve now c).2.job? id = some j) :
    (∃ k, t.job? id = some k ∧ j = c.onJob t now k) ∨
      t.job? id = none ∧ j ∈ c.newJobs t now := by
  cases hrow : t.job? id with
  | some k =>
      rw [job?_serve_of_some now ht c hrow] at hj
      exact .inl ⟨k, rfl, (Option.some.inj hj).symm⟩
  | none =>
      obtain ⟨hmem, rfl⟩ := (job?_eq_some_iff (ht.serve c)).1 hj
      rw [jobs_serve ht, List.mem_append, List.mem_map] at hmem
      rcases hmem with ⟨k, hk, rfl⟩ | hnew
      · rw [StoreCall.onJob_id, (job?_eq_some_iff ht).2 ⟨hk, rfl⟩] at hrow
        cases hrow
      · exact .inr ⟨rfl, hnew⟩

theorem recipients_serve (c : StoreCall) : (t.serve now c).2.recipients = t.recipients := by
  cases c with
  | updateDomain id patch =>
      simp only [serve, updateDomain]
      split <;> rfl
  | putDeployment domain server status hash error =>
      simp only [serve, putDeployment]
      split <;> rfl
  | finishSend id status remoteId error =>
      simp only [serve, finishSend]
      split <;> rfl
  | moveJob id sources target =>
      simp only [serve, moveJob]
      split <;> rfl
  | queueItem id remoteId =>
      simp only [serve, queueItem, moveItem]
      split <;> rfl
  | failItem id source error =>
      simp only [serve, failItem, moveItem]
      split <;> rfl
  | confirmItem id =>
      simp only [serve, confirmItem, moveItem]
      split <;> rfl
  | _ => rfl

theorem mem_pendingItems {job : Uuid} {limit : Int} {i : Item} (hi : i ∈ t.pendingItems job limit) :
    i ∈ t.items ∧ i.jobId = job ∧ i.status = .known .pending := by
  obtain ⟨hmem, htest⟩ := List.mem_filter.1 (List.mem_of_mem_take hi)
  simp only [Bool.and_eq_true, beq_iff_eq] at htest
  exact ⟨hmem, htest.1, htest.2⟩

theorem pendingItems_nodup (ht : t.IsWellFormed) (job : Uuid) (limit : Int) :
    ((t.pendingItems job limit).map Item.id).Nodup :=
  (((List.take_sublist _ _).trans List.filter_sublist).map Item.id).nodup ht.items_nodup

theorem mem_queuedItems {limit : Int} {i : Item} (hi : i ∈ t.queuedItems limit) :
    i ∈ t.items ∧ i.status = .known .queued := by
  obtain ⟨hmem, htest⟩ := List.mem_filter.1 (List.mem_mergeSort.1 (List.mem_of_mem_take hi))
  simp only [isAwaiting, Bool.and_eq_true, beq_iff_eq] at htest
  exact ⟨hmem, htest.1⟩

theorem queuedItems_nodup (ht : t.IsWellFormed) (limit : Int) :
    ((t.queuedItems limit).map Item.id).Nodup := by
  have hsorted : (((t.items.filter isAwaiting).mergeSort checkedBefore).map Item.id).Nodup :=
    ((List.mergeSort_perm _ _).map Item.id).nodup_iff.2
      ((List.filter_sublist.map Item.id).nodup ht.items_nodup)
  exact ((List.take_sublist _ _).map Item.id).nodup hsorted

theorem jobsIn_nodup (ht : t.IsWellFormed) (status : JobStatus) :
    ((t.jobsIn status).map Job.id).Nodup :=
  ((List.mergeSort_perm _ _).map Job.id).nodup_iff.2
    ((List.filter_sublist.map Job.id).nodup ht.jobs_nodup)

end Tables

end Mailroom
