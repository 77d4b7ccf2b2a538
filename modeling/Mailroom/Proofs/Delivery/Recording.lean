import Mailroom.Proofs.Delivery.Own

/-!
Terms of the engine's programs, as far as an item is concerned.  Programs that work on others leave
the item alone; the recording of a message that a server took brings it to a tidy end.  Main
statements: both may be done while operators ask for what they like.
-/

namespace Mailroom

open Program (Asks Meets)

variable {e : Engine} {item job : Uuid} {around : Surroundings} {w : Scene} {α β γ : Type}

/-- Identifiers are apart, and an item is one of a certain job. -/
def BelongsTo (item job : Uuid) (s : Scene) : Prop :=
  s.tables.IsWellFormed ∧ ∀ i, s.tables.item? item = some i → i.jobId = job

/-- What the engine's requests make of a scene where an item belongs to a job. -/
abbrev engineActs (around : Surroundings) (item job : Uuid) : Acts Scene :=
  Office.Known (BelongsTo item job) (around.acts .engine)

/-- A program of the engine that may work on an item: it relies on the others to leave the item
alone, and keeps the item's record in order. -/
abbrev Upholds (e : Engine) (around : Surroundings) (item job : Uuid) (p : Program α)
    (post : α → Scene → Prop) (s : Scene) : Prop :=
  p.Meets (engineActs around item job) (Quiet e item)
    (fun u v => Sound e item u → Sound e item v) post s

theorem calm_aside :
    Calm (engineActs around item job) (.sparing item) (fun _ _ => True) (Quiet e item)
      fun _ => True := by
  refine ⟨stable_const _ _, fun hacts hspares _ => ⟨?_, trivial⟩⟩
  exact quiet_of_spares hacts.1.1 hacts.2.2 hspares

theorem calm_own {P : Scene → Prop} (hP : Stable (Quiet e item) P) :
    Calm (engineActs around item job) (.sparing item) (Quiet e item)
      (fun u v => Sound e item u → Sound e item v) P := by
  refine ⟨hP, fun hacts hspares hu => ?_⟩
  have hquiet : Quiet e item _ _ := quiet_of_spares hacts.1.1 hacts.2.2 hspares
  exact ⟨fun hsound => Sound.stable hsound hquiet, hP hu hquiet⟩

/-- A job that an item is not one of is driven without regard to the item. -/
theorem meets_drive_aside {j : Job} (hj : j.id ≠ job) (e' : Engine) :
    (e'.drive j).run.Meets (engineActs around item job) (fun _ _ => True) (Quiet e item)
      (fun _ _ => True) w := by
  refine calm_aside.drive trivial (fun _ _ => trivial) (fun items u v hacts i hi => ?_) trivial
  have hother : i.id ≠ item := by
    rintro rfl
    obtain ⟨now, hreply, -⟩ := Surroundings.acts_ok hacts.2.2
    obtain ⟨hmem, hjob, -⟩ := Tables.mem_pendingItems (hreply ▸ hi)
    exact hj (hjob ▸ hacts.1.2 i ((Tables.item?_eq_some_iff hacts.1.1).2 ⟨hmem, rfl⟩))
  exact ⟨hother, hother⟩

/-- What is left of writing the queued status of an item. -/
def IsWritten (e : Engine) (item : Uuid) (remoteId : String) :
    Except Failure Bool → Scene → Prop
  | .ok found, s => found = true ∧ Stands e item [remoteId] (IsQueued remoteId) s
  | .error _, s => Stands e item [remoteId] IsPending s

theorem stands_isPending_stable (taken : List String) :
    Stable (Quiet e item) (Stands e item taken IsPending) :=
  Stands.stable fun _ _ => IsPending.not_failed

theorem stands_isQueued_stable (remoteId : String) (taken : List String) :
    Stable (Quiet e item) (Stands e item taken (IsQueued remoteId)) :=
  Stands.stable fun _ _ => IsQueued.not_failed

theorem IsWritten.stable (remoteId : String) (result : Except Failure Bool) :
    Stable (Quiet e item) (IsWritten e item remoteId result) := by
  cases result with
  | ok found => exact (stable_const _ _).and (stands_isQueued_stable remoteId _)
  | error failure => exact stands_isPending_stable _

theorem isWritten_of_acts {remoteId : String} {u v : Scene}
    {answer : (StoreCall.queueItem item remoteId).Answer}
    (hu : Stands e item [remoteId] IsPending u)
    (hacts : engineActs around item job (.store (.queueItem item remoteId)) answer u v) :
    IsWritten e item remoteId answer v := by
  cases answer with
  | ok found => exact hu.queue hacts.1.1 hacts.2.2
  | error failure => exact hu.failure hacts.2.2 (by simp)

theorem IsWritten.sound {remoteId : String} {result : Except Failure Bool}
    (h : IsWritten e item remoteId result w) : Sound e item w := by
  cases result with
  | ok found => exact h.2.sound
  | error failure => exact Stands.sound h

theorem upholds_writeQueued (remoteId : String) (more attempt : Nat)
    (hw : Stands e item [remoteId] IsPending w) :
    Upholds e around item job (Engine.writeQueued item remoteId more attempt)
      (IsWritten e item remoteId) w := by
  induction more generalizing attempt w with
  | zero =>
      intro u hu answer v hacts
      have hv := isWritten_of_acts ((stands_isPending_stable _).many hw hu) hacts
      exact ⟨fun _ => hv.sound, Meets.pure (IsWritten.stable remoteId answer) hv⟩
  | succ more ih =>
      apply Meets.request (stands_isPending_stable _) hw
      intro answer u v hu hacts
      have hv := isWritten_of_acts hu hacts
      refine ⟨fun _ => hv.sound, ?_⟩
      cases answer with
      | ok found => exact Meets.pure (IsWritten.stable remoteId _) hv
      | error failure =>
          refine (calm_own (stands_isPending_stable _)).request trivial hv ?_
          intro _ u v hu hv hacts
          exact ih (attempt + 1) hv

/-- What a server took is recorded, or kept in mind. -/
theorem upholds_recordQueued {remoteId : String} (hw : Stands e item [remoteId] IsPending w) :
    Upholds e around item job (Engine.recordQueued item remoteId) (fun _ => Tidy e item) w := by
  apply Meets.bind
  apply (upholds_writeQueued remoteId _ _ hw).weaken
  intro result u hu
  cases result with
  | ok found =>
      apply Meets.request (stands_isQueued_stable remoteId _) hu.2
      intro answer x v hx hacts
      have hv := hx.drop hacts.2.2
      exact ⟨fun _ => hv.sound, Meets.pure Tidy.stable hv⟩
  | error failure =>
      apply Meets.request (stands_isPending_stable _) hu
      intro answer x v hx hacts
      have hv := hx.keep hacts.2.2
      exact ⟨fun _ => hv.sound, Meets.pure Tidy.stable hv⟩

/-- An item that the engine keeps in mind is recorded in its turn. -/
theorem upholds_recordKnown {known : List (Uuid × String)} {remoteId : String} {i : Item}
    {items : List Item} (hnodup : (items.map Item.id).Nodup) (hi : i ∈ items) (hid : i.id = item)
    (hknown : known.lookup item = some remoteId)
    (hw : Stands e item [remoteId] (IsKept remoteId) w) :
    Upholds e around item job (Engine.recordKnown known items)
      (fun out v => out.1 = items.filter (fun i => (known.lookup i.id).isNone) ∧ Tidy e item v)
      w := by
  have hkept : Stable (Quiet e item) (Stands e item [remoteId] (IsKept remoteId)) :=
    Stands.stable fun _ _ => IsKept.not_failed
  have hstable : ∀ out : List Item × TickReport, ∀ left : List Item,
      Stable (Quiet e item) fun v => out.1 = left ∧ Tidy e item v :=
    fun out left => (stable_const _ _).and Tidy.stable
  induction items generalizing w with
  | nil => cases hi
  | cons k rest ih =>
      simp only [List.map_cons, List.nodup_cons] at hnodup
      rcases hnodup with ⟨hfresh, hnodup⟩
      by_cases hk : k.id = item
      · -- the item's turn: behind it, none of the others is the item
        have hrest : ∀ j ∈ rest, known.lookup j.id ≠ none → j.id ≠ item ∧ j.id ≠ item := by
          have hother : ∀ j ∈ rest, j.id ≠ item :=
            fun j hj hjid => absurd (List.mem_map_of_mem hj) (hjid.trans hk.symm ▸ hfresh)
          exact fun j hj _ => ⟨hother j hj, hother j hj⟩
        simp only [Engine.recordKnown, hk, hknown, List.filter_cons, Option.isNone_some]
        have hpending : Stands e item [remoteId] IsPending w := hw.mono fun _ _ h => h.2
        apply Meets.bind
        apply (upholds_recordQueued hpending).weaken
        intro outcome u hu
        apply Meets.bind
        apply ((calm_own Tidy.stable).recordKnown hrest hu).weaken
        intro out v hv
        exact Meets.pure (hstable _ _) hv
      · have hmem : i ∈ rest := by
          rcases List.mem_cons.1 hi with rfl | hmem
          · exact absurd hid hk
          · exact hmem
        cases hlookup : known.lookup k.id with
        | none =>
            simp only [Engine.recordKnown, hlookup, List.filter_cons, Option.isNone_none, if_true]
            apply Meets.bind
            apply (ih hnodup hmem hw).weaken
            intro out v hv
            exact Meets.pure (hstable _ _) ⟨by rw [hv.1], hv.2⟩
        | some other =>
            simp only [Engine.recordKnown, hlookup, List.filter_cons, Option.isNone_some]
            apply Meets.bind
            apply
              ((calm_own hkept).meets (Engine.asks_recordQueued (.within hk hk) other) hw).weaken
            intro outcome u hu
            apply Meets.bind
            apply (ih hnodup hmem hu).weaken
            intro out v hv
            exact Meets.pure (hstable _ _) hv

end Mailroom
