import Mailroom.Proofs.Delivery.Recording

/-!
Sending an item, and driving the job that it is one of.  Main statement: what is done with the items
of a job ends with the message of each of them in its place.
-/

namespace Mailroom

open Program (Asks Meets)

variable {e : Engine} {item job : Uuid} {around : Surroundings} {w : Scene} {α β γ : Type}

theorem stands_isFree_stable (i : Item) :
    Stable (Quiet e item) (Stands e item [] (IsFree i)) :=
  Stands.stable fun _ _ => IsFree.not_failed

theorem Quiet.recipients {u v : Scene} (h : Quiet e item u v) :
    v.tables.recipients = u.tables.recipients := by
  rcases h with ⟨w, hw⟩
  exact hw.recipients

/-- What is left of sending an item. -/
def IsSent {ε : Type} (e : Engine) (item : Uuid) (i : Item) : Except ε String → Scene → Prop
  | .ok remoteId, s => Stands e item [remoteId] IsPending s
  | .error _, s => Stands e item [] (IsFree i) s

theorem IsSent.stable {ε : Type} (i : Item) (result : Except ε String) :
    Stable (Quiet e item) (IsSent e item i result) := by
  cases result with
  | ok remoteId => exact stands_isPending_stable _
  | error text => exact stands_isFree_stable i

/-- An item that nobody has taken, and its recipient. -/
def IsAddressed (e : Engine) (item : Uuid) (i : Item) (r : Recipient) (s : Scene) : Prop :=
  Stands e item [] (IsFree i) s ∧
    s.tables.recipients.find? (fun r => r.id == i.recipientId) = some r

theorem IsAddressed.stable {i : Item} {r : Recipient} :
    Stable (Quiet e item) (IsAddressed e item i r) := by
  rintro u v ⟨hfree, hrecipient⟩ hquiet
  refine ⟨stands_isFree_stable i hfree hquiet, ?_⟩
  rw [hquiet.recipients]
  exact hrecipient

theorem isSent_of_acts {c : Engine.JobContext} {i : Item} {r : Recipient}
    {content : RenderedContent} {u v : Scene}
    {answer : (MtaCall.submit (c.message i r content)).Answer} (hid : i.id = item)
    (hserver : e.registry.contains i.server = true) (hu : IsAddressed e item i r u)
    (hacts : engineActs around item job (.mta i.server (.submit (c.message i r content))) answer
      u v) : IsSent e item i answer v := by
  rcases hu with ⟨hfree, hrecipient⟩
  cases answer with
  | error error => exact hfree.refuse hacts.2.2
  | ok remoteId =>
      refine hfree.take hacts.2.2 ⟨hserver, _, r, rfl, ?_, ?_, hrecipient, rfl⟩ hid
      · exact Engine.itemHeader_of_message c i r content
      · exact Engine.jobHeader_of_message c i r content

/-- An item is sent to its recipient through its server, with the headers of the item and its
job. -/
theorem upholds_sendItem {i : Item} (c : Engine.JobContext) (hid : i.id = item)
    (hw : Stands e item [] (IsFree i) w) :
    Upholds e around item job (e.sendItem c i).run (IsSent e item i) w := by
  have hfails : ∀ text u, Stands e item [] (IsFree i) u →
      Upholds e around item job (pure (.error text) : Program (Except String String))
        (IsSent e item i) u :=
    fun text u hu => Meets.pure (IsSent.stable i (.error text)) hu
  refine (calm_own (stands_isFree_stable i)).store trivial hw ?_ ?_
  · intro found u v hu hv hacts
    refine Meets.found (fun r hr => ?_) fun _ => hfails _ v hv
    subst hr
    have haddressed : IsAddressed e item i r v := by
      obtain ⟨now, hreply, -⟩ := Surroundings.acts_ok hacts.2.2
      refine ⟨hv, ?_⟩
      rw [Surroundings.acts_recipients hacts.2.2]
      exact hreply.symm
    apply Meets.serviceBind
    -- the recipients stay as they are while the content is resolved
    apply ((calm_own IsAddressed.stable).meets (Engine.asks_content c i r) haddressed).weaken
    intro content x hx
    cases content with
    | error text => exact hfails text x hx.1
    | ok content =>
        dsimp only
        split
        · exact hfails _ x hx.1
        · rename_i hserver
          apply Meets.serviceRequest IsAddressed.stable hx
          intro answer y z hy hacts
          have hsent := isSent_of_acts hid (by simpa using hserver) hy hacts
          cases answer with
          | error error =>
              have hz : Stands e item [] (IsFree i) z := hsent
              exact ⟨fun _ => hz.sound, hfails _ z hz⟩
          | ok remoteId =>
              have hz : Stands e item [remoteId] IsPending z := hsent
              exact ⟨fun _ => hz.sound, Meets.pure (IsSent.stable i (.ok remoteId)) hz⟩
  · intro failure v hv
    exact hfails _ v hv

theorem upholds_attempt {i : Item} (context : Except String Engine.JobContext) (hid : i.id = item)
    (hw : Stands e item [] (IsFree i) w) :
    Upholds e around item job (e.attempt context i) (IsSent e item i) w := by
  cases context with
  | ok c => exact upholds_sendItem c hid hw
  | error text => exact Meets.pure (IsSent.stable i (.error text)) hw

/-- An item that nobody has taken is sent and recorded, or fails. -/
theorem upholds_dispatchItem {i : Item} (context : Except String Engine.JobContext)
    (hid : i.id = item) (hw : Stands e item [] (IsFree i) w) :
    Upholds e around item job (e.dispatchItem context i) (fun _ => Tidy e item) w := by
  apply Meets.bind
  apply (upholds_attempt context hid hw).weaken
  intro sent u hu
  subst hid
  cases sent with
  | ok remoteId => exact upholds_recordQueued hu
  | error text =>
      apply Meets.request (stands_isFree_stable i) hu
      intro answer x v hx hacts
      have hv : Tidy e i.id v := by
        cases answer with
        | ok reply => exact hx.giveUp hacts.1.1 hacts.2.2
        | error failure => exact (hx.failure hacts.2.2 (by simp)).tidy_of_free
      exact ⟨fun _ => hv.sound, Meets.pure Tidy.stable hv⟩

/-- One task works on the item, and the others leave it alone. -/
theorem upholds_forEach {admission : Admission} {key : γ → Uuid} {x : γ} {xs : List γ}
    {task : γ → Program β} (hnodup : (xs.map key).Nodup) (hx : x ∈ xs)
    (hothers : ∀ y ∈ xs, key y ≠ key x →
      (task y).Meets (engineActs around item job) (fun _ _ => True) (Quiet e item)
        (fun _ _ => True) w)
    (hown : Upholds e around item job (task x) (fun _ => Tidy e item) w) :
    Upholds e around item job (.forEach admission xs task) (fun _ => Tidy e item) w :=
  Meets.forEach_key hnodup hx (fun _ _ h => h) (fun _ _ hquiet hu => Sound.stable hu hquiet)
    hothers hown Tidy.stable

theorem upholds_sendLeft {i : Item} {left : List Item} (j : Job) (recorded : TickReport)
    (hnodup : (left.map Item.id).Nodup) (hi : i ∈ left) (hid : i.id = item)
    (hw : Stands e item [] (IsFree i) w) :
    Upholds e around item job (e.sendLeft j left recorded).run (fun _ => Tidy e item) w := by
  have hsome : left.isEmpty = false := by
    cases left with
    | nil => cases hi
    | cons k rest => rfl
  simp only [Engine.sendLeft, hsome]
  apply Meets.lift
  apply ((calm_own (stands_isFree_stable i)).meets (Engine.asks_loadContext j) hw).weaken
  intro context u hu
  have hothers : ∀ k ∈ left, k.id ≠ i.id →
      (e.dispatchItem context k).Meets (engineActs around item job) (fun _ _ => True)
        (Quiet e item) (fun _ _ => True) u := by
    intro k hk hne
    have hother : k.id ≠ item := hid ▸ hne
    exact calm_aside.meets (Engine.asks_dispatchItem e context hother hother) trivial
  apply Meets.lift
  apply (upholds_forEach hnodup hi hothers (upholds_dispatchItem context hid hu)).weaken
  intro outcomes v hv
  exact (calm_own Tidy.stable).meets
    (Service.asks_bind (Service.asks_store trivial) fun _ => Service.asks_pure _) hv

theorem Tidy.pending {i : Item} (hw : Tidy e item w) (hi : w.tables.item? item = some i)
    (hstatus : i.status = .known .pending) :
    Stands e item [] (IsFree i) w ∨
      ∃ remoteId, Stands e item [remoteId] (IsKept remoteId) w := by
  cases hw with
  | free hsound htakings hheld => exact .inl ⟨hsound, htakings, i, hi, hheld, rfl, hstatus⟩
  | recorded remoteId h =>
      rcases h with ⟨-, -, k, hk, -, -, hmem⟩
      obtain rfl := Option.some.inj (hi.symm.trans hk)
      rw [hstatus] at hmem
      simp at hmem
  | kept remoteId h => exact .inr ⟨remoteId, h⟩

/-- The items of a job are worked on, among them one that nobody has taken. -/
theorem upholds_driveItems_free {i : Item} {items : List Item} (j : Job)
    (hnodup : (items.map Item.id).Nodup) (hi : i ∈ items) (hid : i.id = item)
    (hw : Stands e item [] (IsFree i) w) :
    Upholds e around item job (e.driveItems j items).run (fun _ => Tidy e item) w := by
  refine (calm_own (stands_isFree_stable i)).serviceRequest trivial hw ?_
  intro known u v hu hv hacts
  have hunknown : known.lookup item = none := by
    rcases hu with ⟨-, -, -, -, hheld, -⟩
    rw [hacts.2.2.2.1.1]
    exact hheld
  have hothers : ∀ k ∈ items, known.lookup k.id ≠ none → k.id ≠ item ∧ k.id ≠ item := by
    have hother : ∀ k : Item, known.lookup k.id ≠ none → k.id ≠ item :=
      fun k hk hkid => hk (hkid ▸ hunknown)
    exact fun k _ hk => ⟨hother k hk, hother k hk⟩
  apply Meets.lift
  apply ((calm_own (stands_isFree_stable i)).recordKnown hothers hv).weaken
  intro out x hx
  rcases hx with ⟨hleft, hx⟩
  refine upholds_sendLeft j out.2 ?_ ?_ hid hx
  · rw [hleft]
    exact (List.filter_sublist.map Item.id).nodup hnodup
  · rw [hleft]
    exact List.mem_filter.2 ⟨hi, by simp [hid, hunknown]⟩

/-- The items of a job are worked on, among them one that the engine keeps in mind. -/
theorem upholds_driveItems_kept {i : Item} {items : List Item} {remoteId : String} (j : Job)
    (hnodup : (items.map Item.id).Nodup) (hi : i ∈ items) (hid : i.id = item)
    (hw : Stands e item [remoteId] (IsKept remoteId) w) :
    Upholds e around item job (e.driveItems j items).run (fun _ => Tidy e item) w := by
  have hkept : Stable (Quiet e item) (Stands e item [remoteId] (IsKept remoteId)) :=
    Stands.stable fun _ _ => IsKept.not_failed
  refine (calm_own hkept).serviceRequest trivial hw ?_
  intro known u v hu hv hacts
  have hknown : known.lookup item = some remoteId := by
    rcases hu with ⟨-, -, -, -, hheld, -⟩
    rw [hacts.2.2.2.1.1]
    exact hheld
  apply Meets.lift
  apply (upholds_recordKnown hnodup hi hid hknown hv).weaken
  intro out x hx
  rcases hx with ⟨hleft, hx⟩
  have hothers : ∀ k ∈ out.1, k.id ≠ item := by
    intro k hk hkid
    rw [hleft] at hk
    have hnone := (List.mem_filter.1 hk).2
    rw [hkid, hknown] at hnone
    cases hnone
  exact (calm_own Tidy.stable).meets
    (Engine.asks_sendLeft e trivial (fun k hk => ⟨hothers k hk, hothers k hk⟩) out.2) hx

/-- The job of an item is driven. -/
theorem upholds_drive (j : Job) (hw : Tidy e item w) :
    Upholds e around item job (e.drive j).run (fun _ => Tidy e item) w := by
  refine (calm_own Tidy.stable).store trivial hw ?_ ?_
  · intro items u v hu hv hacts
    obtain ⟨now, hreply, htables⟩ := Surroundings.acts_ok hacts.2.2
    have hnodup : (items.map Item.id).Nodup :=
      hreply ▸ Tables.pendingItems_nodup hacts.1.1 j.id e.settings.batchSize
    split
    · exact (calm_own Tidy.stable).meets (Engine.asks_finish trivial fun _ _ => trivial) hv
    · by_cases hmem : ∃ i ∈ items, i.id = item
      · rcases hmem with ⟨i, hi, hid⟩
        obtain ⟨hrow, -, hstatus⟩ := Tables.mem_pendingItems (hreply ▸ hi)
        have hfound : u.tables.item? item = some i :=
          (Tables.item?_eq_some_iff hacts.1.1).2 ⟨hrow, hid⟩
        have hsame : v.tables.item? item = some i := htables ▸ hfound
        rcases hv.pending hsame hstatus with hfree | ⟨remoteId, hkept⟩
        · exact upholds_driveItems_free j hnodup hi hid hfree
        · exact upholds_driveItems_kept j hnodup hi hid hkept
      · have hothers : ∀ i ∈ items, i.id ≠ item := fun i hi hid => hmem ⟨i, hi, hid⟩
        exact (calm_own Tidy.stable).driveItems trivial
          (fun i hi => ⟨hothers i hi, hothers i hi⟩) hv
  · intro failure v hv
    exact Meets.pure Tidy.stable hv

end Mailroom
