import Mailroom.Proofs.Delivery.Parts

/-!
The requests of a batch, one at a time.  Main statements: such a request leaves all parts of the scene
but its own as they are, and in two scenes in which these look alike it is answered alike and makes
them alike again, instants aside.
-/

namespace Mailroom

variable {b : Behaviour} {g : Ground} {parts : Set Part} {u u' v v' : Scene}

section

variable {call : StoreCall} {answer answer' : call.Answer} {e : Effect} {a a' : e.Answer}

theorem attempts_of_acts (hacts : b.acts e a u v) (id : Uuid) :
    v.attempts id =
      u.attempts id + if Event.tries id ⟨.engine, e, a, u.tables, v.tables⟩ then 1 else 0 := by
  rw [Scene.attempts, Surroundings.acts_history hacts.2, List.countP_cons, Scene.attempts]

theorem letters_of_acts (hacts : b.acts e a u v) :
    v.letters = (Event.letter? ⟨.engine, e, a, u.tables, v.tables⟩).toList ++ u.letters := by
  rw [Scene.letters, Surroundings.acts_history hacts.2, List.filterMap_cons, Scene.letters]
  cases Event.letter? ⟨.engine, e, a, u.tables, v.tables⟩ <;> rfl

/-- A call to the store fails and changes nothing, or it is served. -/
theorem store_cases (hacts : b.acts (.store call) answer u v) : v.accepted = u.accepted ∧
    ((∃ failure, b.failure? call (u.tried call) = some failure ∧ answer = .error failure ∧
        v.tables = u.tables) ∨
      (b.failure? call (u.tried call) = none ∧ ∃ now, answer = .ok (u.tables.serve now call).1 ∧
        v.tables = (u.tables.serve now call).2)) := by
  obtain ⟨hallows, -, ⟨hreaction, haccepted⟩, -⟩ := hacts
  refine ⟨haccepted, ?_⟩
  simp only [Behaviour.Allows] at hallows
  split at hallows
  · rename_i failure hfailure
    rcases hreaction with ⟨now, hserved, -⟩ | ⟨-, htables⟩
    · rw [hallows] at hserved
      cases hserved
    · exact .inl ⟨failure, hfailure, hallows, htables⟩
  · rename_i hnone
    obtain ⟨reply, hreply⟩ := hallows
    rcases hreaction with ⟨now, hserved, htables⟩ | ⟨⟨failure, hfailed⟩, -⟩
    · exact .inr ⟨hnone, now, hserved, htables⟩
    · rw [hreply] at hfailed
      cases hfailed

theorem fits_of_store (hcall : call.IsDispatch) (hu : u.Fits g)
    (hacts : b.acts (.store call) answer u v) : v.Fits g := by
  refine ⟨Surroundings.acts_isWellFormed hu.wellFormed hacts.2, ?_⟩
  obtain ⟨-, ⟨failure, -, -, htables⟩ | ⟨-, now, -, htables⟩⟩ := store_cases hacts
  · rw [htables, hu.ground]
  · rw [htables, hcall.ground_serve hu.wellFormed, hu.ground]

theorem changesOnly_of_store (hcall : call.IsDispatch) (hu : u.Fits g)
    (hacts : b.acts (.store call) answer u v) : ChangesOnly g (call.footprint g) u v := by
  refine ⟨fun _ => fits_of_store hcall hu hacts, fun part hpart => ?_⟩
  obtain ⟨haccepted, hcases⟩ := store_cases hacts
  cases part with
  | item id =>
      have hrow : v.tables.item? id = u.tables.item? id := by
        rcases hcases with ⟨failure, -, -, htables⟩ | ⟨-, now, -, htables⟩
        · rw [htables]
        · rw [htables, hcall.item?_serve hu.wellFormed]
          cases hi : u.tables.item? id with
          | none => rfl
          | some i =>
              obtain ⟨-, rfl⟩ := (Tables.item?_eq_some_iff hu.wellFormed).1 hi
              rw [Option.map_some, hcall.onItem_eq_self hpart]
      have hfresh : Event.tries id ⟨.engine, .store call, answer, u.tables, v.tables⟩ = false := by
        cases call with
        | queueItem other remoteId => exact beq_false_of_ne fun heq => hpart (heq ▸ rfl)
        | _ => rfl
      rw [Scene.sight, hrow, haccepted, attempts_of_acts hacts, hfresh]
      rfl
  | job id =>
      have hrow : v.tables.job? id = u.tables.job? id := by
        rcases hcases with ⟨failure, -, -, htables⟩ | ⟨-, now, -, htables⟩
        · rw [htables]
        · rw [htables, hcall.job?_serve hu.wellFormed]
          cases hj : u.tables.job? id with
          | none => rfl
          | some j =>
              obtain ⟨-, rfl⟩ := (Tables.job?_eq_some_iff hu.wellFormed).1 hj
              rw [Option.map_some, hcall.onJob_eq_self hpart]
      rw [Scene.sight, hrow]
      rfl
  | mail header =>
      rw [Scene.sight, letters_of_acts hacts]
      rfl

theorem tried_of_alike (hsub : call.footprint g ⊆ parts) (halike : Alike parts u u') :
    u.tried call = u'.tried call := by
  cases call with
  | queueItem id remoteId =>
      have hsight := halike _ (hsub (Set.mem_singleton (Part.item id)))
      simp only [Scene.sight, Sight.undated, Sight.item.injEq] at hsight
      exact hsight.2.2
  | _ => rfl

theorem map_map_congr {α β : Type} {look : α → β} {f f' : α → α} {o o' : Option α}
    (hf : ∀ a a', look a = look a' → look (f a) = look (f' a'))
    (h : o.map look = o'.map look) : (o.map f).map look = (o'.map f').map look := by
  cases o with
  | none =>
      obtain rfl := Option.map_eq_none_iff.1 h.symm
      rfl
  | some a =>
      obtain ⟨a', rfl, ha⟩ := Option.map_eq_some_iff.1 h.symm
      exact congrArg some (hf a a' ha.symm)

/-- In two scenes that look alike a call fails in the same way, or it is served. -/
theorem store_cases_of_alike (hsub : call.footprint g ⊆ parts) (halike : Alike parts u u')
    (hacts : b.acts (.store call) answer u v) (hacts' : b.acts (.store call) answer' u' v') :
    (∃ failure, answer = .error failure ∧ answer' = .error failure ∧ v.tables = u.tables ∧
        v'.tables = u'.tables) ∨
      ∃ now now', answer = .ok (u.tables.serve now call).1 ∧
        answer' = .ok (u'.tables.serve now' call).1 ∧ v.tables = (u.tables.serve now call).2 ∧
        v'.tables = (u'.tables.serve now' call).2 := by
  obtain ⟨-, hcases⟩ := store_cases hacts
  obtain ⟨-, hcases'⟩ := store_cases hacts'
  rw [tried_of_alike hsub halike] at hcases
  rcases hcases with ⟨failure, hfails, ha, htables⟩ | ⟨hserves, now, ha, htables⟩ <;>
    rcases hcases' with ⟨failure', hfails', ha', htables'⟩ | ⟨hserves', now', ha', htables'⟩
  · obtain rfl := Option.some.inj (hfails.symm.trans hfails')
    exact .inl ⟨failure, ha, ha', htables, htables'⟩
  · cases hfails.symm.trans hserves'
  · cases hfails'.symm.trans hserves
  · exact .inr ⟨now, now', ha, ha', htables, htables'⟩

/-- Behind a call two scenes look alike again. -/
theorem alike_of_store (hcall : call.IsDispatch) (hsub : call.footprint g ⊆ parts)
    (hu : u.Fits g) (hu' : u'.Fits g) (halike : Alike parts u u')
    (hacts : b.acts (.store call) answer u v) (hacts' : b.acts (.store call) answer' u' v') :
    Alike parts v v' := by
  have hcases := store_cases_of_alike hsub halike hacts hacts'
  intro part hpart
  have hsight := halike part hpart
  cases part with
  | item id =>
      obtain ⟨haccepted, -⟩ := store_cases hacts
      obtain ⟨haccepted', -⟩ := store_cases hacts'
      simp only [Scene.sight, Sight.undated, Sight.item.injEq] at hsight ⊢
      obtain ⟨hrow, hheld, hattempts⟩ := hsight
      refine ⟨?_, by rw [haccepted, haccepted', hheld], ?_⟩
      · obtain ⟨_, -, -, htables, htables'⟩ | ⟨now, now', -, -, htables, htables'⟩ := hcases
        · rw [htables, htables', hrow]
        · rw [htables, htables', hcall.item?_serve hu.wellFormed, hcall.item?_serve hu'.wellFormed]
          exact map_map_congr (fun _ _ => hcall.undated_onItem) hrow
      · have htries : Event.tries id ⟨.engine, .store call, answer, u.tables, v.tables⟩ =
            Event.tries id ⟨.engine, .store call, answer', u'.tables, v'.tables⟩ := by
          cases call <;> rfl
        rw [attempts_of_acts hacts, attempts_of_acts hacts', htries, hattempts]
  | job id =>
      simp only [Scene.sight, Sight.undated, Sight.job.injEq] at hsight ⊢
      obtain ⟨_, -, -, htables, htables'⟩ | ⟨now, now', -, -, htables, htables'⟩ := hcases
      · rw [htables, htables', hsight]
      · rw [htables, htables', hcall.job?_serve hu.wellFormed, hcall.job?_serve hu'.wellFormed]
        refine map_map_congr (fun _ _ hj => hcall.undated_onJob hj ?_) hsight
        rintro other rfl
        exact Alike.statsOf hu hu' (halike.mono hsub)
  | mail header =>
      rw [Scene.sight, letters_of_acts hacts, Scene.sight, letters_of_acts hacts']
      exact hsight

end

theorem Tables.moveItem_fst_eq {t : Tables} (ht : t.IsWellFormed) (id : Uuid) (source : ItemStatus)
    (change : Item → Item) (now : Timestamp) : (t.moveItem id source change now).1 =
      (t.item? id).any fun i => i.status == .known source := by
  have hany : (t.moveItem id source change now).1 = t.items.any (isItemIn id source) := by
    rw [moveItem]
    split
    · rename_i htrue
      exact htrue.symm
    · rename_i hfalse
      exact (Bool.eq_false_of_not_eq_true hfalse).symm
  rw [hany, Bool.eq_iff_iff, List.any_eq_true, Option.any_eq_true]
  simp only [isItemIn, Bool.and_eq_true, beq_iff_eq, item?_eq_some_iff ht, and_assoc]

theorem Tables.isSome_moveJob (t : Tables) (id : Uuid) (sources : List JobStatus)
    (target : JobStatus) (now : Timestamp) :
    (t.moveJob id sources target now).1.isSome = (t.job? id).any (canLeave sources) := by
  rw [moveJob]
  cases t.job? id with
  | none => rfl
  | some j =>
      rw [Option.any_some]
      by_cases hleaves : canLeave sources j = true
      · rw [Option.filter_some_pos hleaves, hleaves]
        rfl
      · rw [Bool.not_eq_true] at hleaves
        rw [Option.filter_some_neg hleaves, hleaves]
        rfl

namespace Effect

/-- The requests by which a batch is dispatched. -/
def IsDispatch : Effect → Prop
  | .store call => call.IsDispatch
  | .mta _ (.submit _) | .sleep _ | .accepted | .keepAccepted _ _ | .dropAccepted _ => True
  | _ => False

/-- The parts that a request reads or writes. -/
def footprint (g : Ground) : Effect → Set Part
  | .store call => call.footprint g
  | .mta _ (.submit message) => {.mail message.itemHeader?}
  | .keepAccepted id _ | .dropAccepted id => {.item id}
  | _ => ∅

/-- Two answers agree in what matters to a batch, if it works on some parts: whether a job was
moved, and what the engine keeps in mind of the items that are worked on. -/
def Agree (parts : Set Part) : (e : Effect) → e.Answer → e.Answer → Prop
  | .store (.pendingItems _ _), _, _ => True
  | .store (.moveJob _ _ _), a, a' => a.map Option.isSome = a'.map Option.isSome
  | .accepted, a, a' => ∀ id, Part.item id ∈ parts → a.lookup id = a'.lookup id
  | _, a, a' => a = a'

/-- What a request that is no call to the store makes of what is seen of a part. -/
def onSight : Effect → Part → Sight → Sight
  | .keepAccepted id remoteId, .item other, .item row held attempts =>
      .item row (if other = id then some remoteId else held) attempts
  | .dropAccepted id, .item other, .item row held attempts =>
      .item row (if other = id then none else held) attempts
  | .mta server (.submit message), .mail header, .mail letters =>
      .mail (if message.itemHeader? == header then (server, message) :: letters else letters)
  | _, _, sight => sight

variable {e : Effect} {a a' : e.Answer}

theorem undated_onSight (e : Effect) (part : Part) (sight : Sight) :
    (e.onSight part sight).undated = e.onSight part sight.undated := by
  cases e with
  | mta server call => cases call <;> cases part <;> cases sight <;> rfl
  | keepAccepted | dropAccepted => cases part <;> cases sight <;> rfl
  | _ => rfl

theorem onSight_eq_self {part : Part} (hpart : part ∉ e.footprint g) (sight : Sight) :
    e.onSight part sight = sight := by
  cases e with
  | mta server call =>
      cases call with
      | submit message =>
          cases part with
          | mail header =>
              have hne : (message.itemHeader? == header) = false :=
                beq_false_of_ne fun heq => hpart (heq ▸ rfl)
              cases sight <;> simp [onSight, hne]
          | _ => rfl
      | _ => rfl
  | keepAccepted id remoteId =>
      cases part with
      | item other =>
          have hne : ¬ other = id := fun heq => hpart (heq ▸ rfl)
          cases sight <;> simp [onSight, hne]
      | _ => rfl
  | dropAccepted id =>
      cases part with
      | item other =>
          have hne : ¬ other = id := fun heq => hpart (heq ▸ rfl)
          cases sight <;> simp [onSight, hne]
      | _ => rfl
  | _ => rfl

/-- What is seen behind a request that is no call to the store, if it leaves the tables as they are
and does with the items what it should. -/
theorem sight_of_tables (hacts : b.acts e a u v) (hstore : ∀ call, e ≠ .store call)
    (htables : v.tables = u.tables)
    (hitem : ∀ id, e.onSight (.item id) (u.sight (.item id)) =
      .item (u.tables.item? id) (v.accepted.lookup id) (u.attempts id)) (part : Part) :
    v.sight part = e.onSight part (u.sight part) := by
  cases part with
  | item id =>
      have hfresh : Event.tries id ⟨.engine, e, a, u.tables, v.tables⟩ = false := by
        cases e with
        | store call => exact absurd rfl (hstore call)
        | _ => rfl
      rw [hitem, Scene.sight, htables, attempts_of_acts hacts, hfresh]
      rfl
  | job id =>
      rw [Scene.sight, htables]
      cases e with
      | mta server call => cases call <;> rfl
      | _ => rfl
  | mail header =>
      rw [Scene.sight, letters_of_acts hacts]
      cases e with
      | store call => exact absurd rfl (hstore call)
      | mta server call =>
          cases call with
          | submit message =>
              simp only [Event.letter?, Option.toList_some, List.cons_append, List.nil_append,
                List.filter_cons]
              split <;> rename_i hheader <;> simp [onSight, Scene.sight, hheader]
          | _ => rfl
      | _ => rfl

/-- A request that is no call to the store leaves the tables as they are. -/
theorem IsDispatch.sight (he : e.IsDispatch) (hstore : ∀ call, e ≠ .store call)
    (hacts : b.acts e a u v) :
    v.tables = u.tables ∧ ∀ part, v.sight part = e.onSight part (u.sight part) := by
  obtain ⟨-, -, hreaction, -⟩ := id hacts
  suffices h : v.tables = u.tables ∧ ∀ id, e.onSight (.item id) (u.sight (.item id)) =
      .item (u.tables.item? id) (v.accepted.lookup id) (u.attempts id) from
    ⟨h.1, sight_of_tables hacts hstore h.1 h.2⟩
  cases e with
  | store call => exact absurd rfl (hstore call)
  | mta server call =>
      cases call with
      | submit message => exact ⟨hreaction.1, fun id => by rw [hreaction.2]; rfl⟩
      | _ => exact absurd he id
  | sleep => exact ⟨hreaction.1, fun id => by rw [hreaction.2]; rfl⟩
  | accepted => exact ⟨hreaction.2.1, fun id => by rw [hreaction.2.2]; rfl⟩
  | keepAccepted id remoteId =>
      exact ⟨hreaction.1, fun other => by rw [hreaction.2, Engine.lookup_keep]; rfl⟩
  | dropAccepted id =>
      exact ⟨hreaction.1, fun other => by rw [hreaction.2, Engine.lookup_forget]; rfl⟩
  | _ => exact absurd he id

theorem IsDispatch.changesOnly (he : e.IsDispatch) (hu : u.Fits g) (hacts : b.acts e a u v) :
    ChangesOnly g (e.footprint g) u v := by
  by_cases hstore : ∃ call, e = .store call
  · obtain ⟨call, rfl⟩ := hstore
    exact changesOnly_of_store he hu hacts
  · obtain ⟨htables, hsight⟩ := he.sight (fun call heq => hstore ⟨call, heq⟩) hacts
    refine ⟨fun _ => ⟨htables ▸ hu.wellFormed, htables ▸ hu.ground⟩, fun part hpart => ?_⟩
    rw [hsight, onSight_eq_self hpart]

theorem IsDispatch.alike (he : e.IsDispatch) (hsub : e.footprint g ⊆ parts) (hu : u.Fits g)
    (hu' : u'.Fits g) (halike : Alike parts u u') (hacts : b.acts e a u v)
    (hacts' : b.acts e a' u' v') : Alike parts v v' := by
  by_cases hstore : ∃ call, e = .store call
  · obtain ⟨call, rfl⟩ := hstore
    exact alike_of_store he hsub hu hu' halike hacts hacts'
  · obtain ⟨-, hsight⟩ := he.sight (fun call heq => hstore ⟨call, heq⟩) hacts
    obtain ⟨-, hsight'⟩ := he.sight (fun call heq => hstore ⟨call, heq⟩) hacts'
    intro part hpart
    rw [hsight, hsight', undated_onSight, undated_onSight, halike part hpart]

theorem agree_serve {call : StoreCall} {now now' : Timestamp} (hcall : call.IsDispatch)
    (hsub : call.footprint g ⊆ parts) (hu : u.Fits g) (hu' : u'.Fits g)
    (halike : Alike parts u u') :
    (Effect.store call).Agree parts (.ok (u.tables.serve now call).1)
      (.ok (u'.tables.serve now' call).1) := by
  have hitem : ∀ id source, Part.item id ∈ parts →
      ((u.tables.item? id).any fun i => i.status == .known source) =
        (u'.tables.item? id).any fun i => i.status == .known source := by
    intro id source hid
    have hsight := halike _ hid
    simp only [Scene.sight, Sight.undated, Sight.item.injEq] at hsight
    have hany := congrArg (Option.any fun i : Item => i.status == .known source) hsight.1
    rwa [Option.any_map, Option.any_map] at hany
  have hothers : u.tables.ground.others = u'.tables.ground.others := by
    rw [hu.ground, hu'.ground]
  simp only [Tables.ground, Tables.mk.injEq, true_and] at hothers
  obtain ⟨-, -, -, -, htemplates, hcampaigns, hvariants, hrecipients, hglobals, -⟩ := hothers
  cases call with
  | pendingItems => trivial
  | moveJob id sources target =>
      have hsight := halike _ (hsub (Set.mem_singleton (Part.job id)))
      simp only [Scene.sight, Sight.undated, Sight.job.injEq] at hsight
      have hany := congrArg (Option.any (Tables.canLeave sources)) hsight
      rw [Option.any_map, Option.any_map] at hany
      exact congrArg Except.ok ((Tables.isSome_moveJob ..).trans
        (hany.trans (Tables.isSome_moveJob ..).symm))
  | queueItem id remoteId =>
      have hreply := hitem id .pending (hsub (Set.mem_singleton (Part.item id)))
      rw [← Tables.moveItem_fst_eq hu.wellFormed, ← Tables.moveItem_fst_eq hu'.wellFormed] at hreply
      exact congrArg Except.ok hreply
  | failItem id source error =>
      have hreply := hitem id source (hsub (Set.mem_singleton (Part.item id)))
      rw [← Tables.moveItem_fst_eq hu.wellFormed, ← Tables.moveItem_fst_eq hu'.wellFormed] at hreply
      exact congrArg Except.ok hreply
  | refreshStats id => exact congrArg Except.ok (Alike.statsOf hu hu' (halike.mono hsub))
  | recipient id =>
      exact congrArg (fun rows : List Recipient => Except.ok (rows.find? fun r => r.id == id))
        hrecipients
  | template id =>
      exact congrArg (fun rows : List Template => Except.ok (rows.find? fun t => t.id == id))
        htemplates
  | templateByName name =>
      exact congrArg (fun rows : List Template => Except.ok (rows.find? fun t => t.name == name))
        htemplates
  | campaign id =>
      exact congrArg (fun rows : List Campaign => Except.ok (rows.find? fun c => c.id == id))
        hcampaigns
  | variants id =>
      exact congrArg (fun rows : List Variant =>
        Except.ok (rows.filter fun v => v.campaignId == id)) hvariants
  | globals => exact congrArg Except.ok hglobals
  | _ => exact absurd hcall id

theorem IsDispatch.agree (he : e.IsDispatch) (hsub : e.footprint g ⊆ parts) (hu : u.Fits g)
    (hu' : u'.Fits g) (halike : Alike parts u u') (hacts : b.acts e a u v)
    (hacts' : b.acts e a' u' v') : e.Agree parts a a' := by
  cases e with
  | store call =>
      obtain ⟨failure, rfl, rfl, -⟩ | ⟨now, now', rfl, rfl, -⟩ :=
        store_cases_of_alike hsub halike hacts hacts'
      · cases call <;> first | rfl | trivial
      · exact agree_serve he hsub hu hu' halike
  | mta server call =>
      cases call with
      | submit message => exact hacts.1.trans hacts'.1.symm
      | _ => exact absurd he id
  | accepted =>
      intro id hid
      have hsight := halike _ hid
      simp only [Scene.sight, Sight.undated, Sight.item.injEq] at hsight
      rw [hacts.2.2.1.1, hacts'.2.2.1.1]
      exact hsight.2.1
  | sleep | keepAccepted | dropAccepted => rfl
  | _ => exact absurd he id

end Effect

end Mailroom
