import Mailroom.Proofs.Deployment.Fingerprint
import Mailroom.Proofs.Deployment.Workshop

/-!
Deployments that hold other settings than those of the day, when calls run side by side.  An update
stores its settings and then marks what holds others; a deploy looks settings up, pushes them and then
records them.  Main statement: when all calls are over, a deployment holds other settings only if a
deploy looked them up before an update stored its own, and recorded them after that update had marked.
-/

namespace Mailroom.DomainSync

namespace Deed

def looked? : Deed → Option Domain
  | ⟨_, .store (.domainByName _), .ok (some config)⟩ => some config.domain
  | _ => none

def stored? : Deed → Option Domain
  | ⟨_, .store (.updateDomain _ _), .ok d⟩ => d
  | _ => none

def marked? : Deed → Option Uuid
  | ⟨_, .store (.markOutdated id _), _⟩ => some id
  | _ => none

/-- What was recorded as deployed: a domain, a server and a hash. -/
def recorded? : Deed → Option (Uuid × String × String)
  | ⟨_, .store (.putDeployment id server .deployed (some hash) _), _⟩ => some (id, server, hash)
  | _ => none

/-- Settings of a domain were stored. -/
def Stores (x : Deed) (id : Uuid) : Prop := ∃ d, x.stored? = some d ∧ d.id = id

end Deed

/-- The settings of a deployment were overtaken: a call looked them up, another call stored other
ones and marked the deployments of the domain, and then the first call recorded them. -/
def Overtaken (history : List Deed) (r : Deployment) : Prop :=
  ∃ (record mark store look : Deed) (d e : Domain),
    [record, mark, store, look].Sublist history ∧
    look.looked? = some d ∧ store.stored? = some e ∧ mark.marked? = some r.domainId ∧
    record.recorded? = some (r.domainId, r.server, d.configHash) ∧
    look.place = record.place ∧ store.place = mark.place ∧ store.place ≠ record.place ∧
    d.id = r.domainId ∧ e.id = r.domainId ∧ d.configHash ≠ e.configHash ∧
    r.deployedHash = some d.configHash

/-- The settings of a domain that were stored last have not been marked by the same call yet. -/
def Owed (history : List Deed) (id : Uuid) : Prop :=
  ∃ (later earlier : List Deed) (store : Deed),
    history = later ++ store :: earlier ∧ store.Stores id ∧ (∀ x ∈ later, ¬ x.Stores id) ∧
      ∀ x ∈ later, ¬ (x.place = store.place ∧ x.marked? = some id)

section

variable {history : List Deed} {x : Deed} {id : Uuid} {r : Deployment}

theorem Overtaken.cons (h : Overtaken history r) (x : Deed) : Overtaken (x :: history) r := by
  obtain ⟨record, mark, store, look, d, e, hsublist, hrest⟩ := h
  exact ⟨record, mark, store, look, d, e, hsublist.cons x, hrest⟩

theorem owed_of_stores (hx : x.Stores id) : Owed (x :: history) id := by
  refine ⟨[], history, x, rfl, hx, ?_, ?_⟩
  · exact fun y hy => absurd hy List.not_mem_nil
  · exact fun y hy => absurd hy List.not_mem_nil

theorem Owed.cons (h : Owed history id) (hmark : x.marked? ≠ some id) : Owed (x :: history) id := by
  by_cases hx : x.Stores id
  · exact owed_of_stores hx
  · obtain ⟨later, earlier, store, rfl, hstore, hnone, hunmarked⟩ := h
    refine ⟨x :: later, earlier, store, rfl, hstore, List.forall_mem_cons.2 ⟨hx, hnone⟩, ?_⟩
    exact List.forall_mem_cons.2 ⟨fun hown => hmark hown.2, hunmarked⟩

/-- Once settings were stored, the last ones that were are marked, or they are still to be. -/
theorem owed_or_marked {later : List Deed} (earlier : List Deed) (hstored : ∃ x ∈ later, x.Stores id) :
    Owed (later ++ earlier) id ∨
      ∃ l₁ l₂ store mark, later = l₁ ++ store :: l₂ ∧ store.Stores id ∧
        (∀ x ∈ l₁, ¬ x.Stores id) ∧ mark ∈ l₁ ∧ mark.place = store.place ∧
          mark.marked? = some id := by
  classical
  obtain ⟨x, hx, hstores⟩ := hstored
  obtain ⟨store, hfind⟩ : ∃ store, later.find? (fun x => decide (x.Stores id)) = some store :=
    Option.isSome_iff_exists.1 (List.find?_isSome.2 ⟨x, hx, by simpa using hstores⟩)
  obtain ⟨hstore, l₁, l₂, rfl, hnone⟩ := List.find?_eq_some_iff_append.1 hfind
  have hstore : store.Stores id := by simpa using hstore
  have hnone : ∀ x ∈ l₁, ¬ x.Stores id := fun x hx => by simpa using hnone x hx
  by_cases hmarked : ∃ mark ∈ l₁, mark.place = store.place ∧ mark.marked? = some id
  · obtain ⟨mark, hmark, hplace, hid⟩ := hmarked
    exact .inr ⟨l₁, l₂, store, mark, rfl, hstore, hnone, hmark, hplace, hid⟩
  · refine .inl ⟨l₁, l₂ ++ earlier, store, by simp, hstore, hnone, fun x hx hown => ?_⟩
    exact hmarked ⟨x, hx, hown⟩

end

/-- A call has stored nothing. -/
def Idle (place : Nat) (history : List Deed) : Prop :=
  ∀ x ∈ history, x.place = place → x.stored? = none

/-- Whatever a call has stored, it was these settings. -/
def StoredOnly (place : Nat) (d : Domain) (history : List Deed) : Prop :=
  ∀ x ∈ history, x.place = place → ∀ e, x.stored? = some e → e = d

/-- Whatever a call has stored, it has marked since. -/
def Settled (place : Nat) (history : List Deed) : Prop :=
  ∀ later store earlier, history = later ++ store :: earlier → store.place = place →
    ∀ d, store.stored? = some d → ∃ mark ∈ later, mark.place = place ∧ mark.marked? = some d.id

/-- A call does one of these: it looks a domain up, hears from a server, records what it looked up
itself without having stored anything, records that a server refused, forgets a deployment, stores
settings, or marks with the hash of the only settings that it has stored. -/
inductive Does (place : Nat) (u : Site) : Site → Prop where
  | looks (name : String) : Does place u (u.looked place name)
  | hears (server : String) (call : MtaCall) (answer : call.Answer) :
      Does place u (u.answered place server call answer)
  | records (now : Timestamp) (server : String) {d : Domain} {look : Deed}
      (hidle : Idle place u.history) (hlook : look ∈ u.history) (hplace : look.place = place)
      (hlooked : look.looked? = some d) :
      Does place u
        (u.served place now (.putDeployment d.id server .deployed (some d.configHash) none))
  | fails (now : Timestamp) (id : Uuid) (server : String) (error : Option String) :
      Does place u (u.served place now (.putDeployment id server .failed none error))
  | drops (now : Timestamp) (id : Uuid) (server : String) :
      Does place u (u.served place now (.dropDeployment id server))
  | stores (now : Timestamp) (id : Uuid) (patch : DomainPatch) :
      Does place u (u.served place now (.updateDomain id patch))
  | marks (now : Timestamp) {d : Domain} (honly : StoredOnly place d u.history) :
      Does place u (u.served place now (.markOutdated d.id d.configHash))

/-- A deployment that counts as deployed holds the settings of the day, or its settings were
overtaken, or it is still to be marked. -/
def Site.Accounts (u : Site) (r : Deployment) : Prop :=
  u.tables.IsCurrent r ∨ Overtaken u.history r ∨ Owed u.history r.domainId

/-- Domains can be told apart, what was seen of one and not stored since is still so, and all that
counts as deployed is accounted for. -/
structure Site.IsWatched (u : Site) : Prop where
  ids_nodup : (u.tables.domains.map Domain.id).Nodup
  seen : ∀ later x earlier d, u.history = later ++ x :: earlier →
    (x.looked? = some d ∨ x.stored? = some d) → (∀ y ∈ later, ¬ y.Stores d.id) →
      d ∈ u.tables.domains
  accounted : ∀ r ∈ u.tables.deployments, r.status = .known .deployed → u.Accounts r

section

variable {u v : Site} {place : Nat} {x : Deed} {r : Deployment}

theorem looked?_domainByName {name : String} {reply : Option DomainConfig} :
    Deed.looked? ⟨place, .store (.domainByName name), .ok reply⟩ =
      reply.map DomainConfig.domain := by
  cases reply <;> rfl

/-- One deed was added to the history: what it shows of a domain is so, and a domain of which it
stores nothing is as it was. -/
structure Follows (place : Nat) (x : Deed) (u v : Site) : Prop where
  history_eq : v.history = x :: u.history
  place_eq : x.place = place
  ids_nodup : (v.tables.domains.map Domain.id).Nodup
  shown : ∀ d, x.looked? = some d ∨ x.stored? = some d → d ∈ v.tables.domains
  kept : ∀ d ∈ u.tables.domains, d ∈ v.tables.domains ∨ x.Stores d.id

theorem Follows.of_domains_eq (hids : (u.tables.domains.map Domain.id).Nodup)
    (hhistory : v.history = x :: u.history) (hplace : x.place = place)
    (hdomains : v.tables.domains = u.tables.domains) (hlooked : x.looked? = none)
    (hstored : x.stored? = none) : Follows place x u v := by
  refine ⟨hhistory, hplace, hdomains ▸ hids, fun d hd => ?_, fun d hd => .inl (hdomains ▸ hd)⟩
  rw [hlooked, hstored] at hd
  rcases hd with hd | hd <;> cases hd

theorem Does.follows (hids : (u.tables.domains.map Domain.id).Nodup) (h : Does place u v) :
    ∃ x, Follows place x u v := by
  cases h with
  | looks name =>
      refine ⟨_, rfl, rfl, hids, fun d hd => ?_, fun d hd => .inl hd⟩
      rw [looked?_domainByName] at hd
      rcases hd with hd | hd
      · obtain ⟨config, hconfig, rfl⟩ := Option.map_eq_some_iff.1 hd
        exact (Tables.domainByName_eq_some hconfig).1
      · cases hd
  | hears server call answer => exact ⟨_, .of_domains_eq hids rfl rfl rfl rfl rfl⟩
  | records now server _ _ _ _ =>
      exact ⟨_, .of_domains_eq hids rfl rfl (Tables.domains_putDeployment _ _ _) rfl rfl⟩
  | fails now id server error =>
      exact ⟨_, .of_domains_eq hids rfl rfl (Tables.domains_putDeployment _ _ _) rfl rfl⟩
  | drops now id server => exact ⟨_, .of_domains_eq hids rfl rfl rfl rfl rfl⟩
  | stores now id patch =>
      refine ⟨_, rfl, rfl, ?_, fun d hd => ?_, fun d hd => ?_⟩
      · change ((u.tables.updateDomain id patch now).2.domains.map Domain.id).Nodup
        rw [Tables.map_updateDomain hids id fun _ => rfl]
        exact hids
      · rcases hd with hd | hd
        · cases hd
        · exact (Tables.mem_of_updateDomain hids hd).1
      · by_cases hid : d.id = id
        · subst hid
          exact .inr ⟨_, Tables.updateDomain_of_mem hids hd patch, rfl⟩
        · refine .inl ?_
          change d ∈ (u.tables.updateDomain id patch now).2.domains
          rw [Tables.domains_updateDomain hids, List.mem_map]
          exact ⟨d, hd, by simp [hid]⟩
  | marks now _ => exact ⟨_, .of_domains_eq hids rfl rfl rfl rfl rfl⟩

namespace Site.IsWatched

theorem seen_of_follows (hu : u.IsWatched) (hx : Follows place x u v) {later earlier : List Deed}
    {y : Deed} {d : Domain} (hsplit : v.history = later ++ y :: earlier)
    (hy : y.looked? = some d ∨ y.stored? = some d) (hnone : ∀ z ∈ later, ¬ z.Stores d.id) :
    d ∈ v.tables.domains := by
  rw [hx.history_eq] at hsplit
  rcases List.cons_eq_append_iff.1 hsplit with ⟨rfl, hcons⟩ | ⟨later, rfl, hearlier⟩
  · obtain ⟨rfl, -⟩ := List.cons.inj hcons
    exact hx.shown d hy
  · rw [List.forall_mem_cons] at hnone
    rcases hx.kept d (hu.seen _ _ _ _ hearlier hy hnone.2) with hkept | hstores
    · exact hkept
    · exact absurd hstores hnone.1

/-- A row stays accounted for while nobody marks its domain. -/
theorem accounts_of_follows (hx : Follows place x u v) (hmark : x.marked? ≠ some r.domainId)
    (hr : u.Accounts r) : v.Accounts r := by
  rw [Accounts, hx.history_eq]
  rcases hr with ⟨d, hd, hid, hhash⟩ | hovertaken | howed
  · rcases hx.kept d hd with hkept | hstores
    · exact .inl ⟨d, hkept, hid, hhash⟩
    · exact .inr (.inr (owed_of_stores (hid ▸ hstores)))
  · exact .inr (.inl (hovertaken.cons x))
  · exact .inr (.inr (howed.cons hmark))

/-- What a call records was looked up when it was so, and if it is not so any more, then another call
has stored other settings in between. -/
theorem accounts_of_record (hu : u.IsWatched) (hx : Follows place x u v) {d : Domain} {look : Deed}
    (hdomains : v.tables.domains = u.tables.domains) (hidle : Idle place u.history)
    (hlook : look ∈ u.history) (hplace : look.place = place) (hlooked : look.looked? = some d)
    (hrecorded : x.recorded? = some (r.domainId, r.server, d.configHash))
    (hmarked : x.marked? = none) (hid : d.id = r.domainId)
    (hhash : r.deployedHash = some d.configHash) : v.Accounts r := by
  obtain ⟨later, earlier, hsplit⟩ := List.append_of_mem hlook
  by_cases hstored : ∃ y ∈ later, y.Stores d.id
  · rcases owed_or_marked (look :: earlier) hstored with
      howed | ⟨l₁, l₂, store, mark, rfl, ⟨e, he, heid⟩, hnone, hmark, hmarkplace, hmarkid⟩
    · rw [← hsplit, hid] at howed
      refine .inr (.inr ?_)
      rw [hx.history_eq]
      exact howed.cons (by simp [hmarked])
    · have hcurrent : e ∈ u.tables.domains := by
        refine hu.seen l₁ store (l₂ ++ look :: earlier) e ?_ (.inr he) ?_
        · rw [hsplit, List.append_assoc, List.cons_append]
        · rw [heid]
          exact hnone
      by_cases hsame : d.configHash = e.configHash
      · refine .inl ⟨e, hdomains ▸ hcurrent, heid.trans hid, ?_⟩
        rw [hhash, hsame]
      · refine .inr (.inl ⟨x, mark, store, look, d, e, ?_, hlooked, he, ?_, hrecorded, ?_,
          hmarkplace.symm, ?_, hid, heid.trans hid, hsame, hhash⟩)
        · rw [hx.history_eq, hsplit, List.append_assoc, List.cons_append]
          refine .cons_cons x ((List.singleton_sublist.2 hmark).append (.cons_cons store ?_))
          exact (List.singleton_sublist.2 (by simp))
        · rw [hmarkid, hid]
        · rw [hplace, hx.place_eq]
        · intro hown
          have hnothing := hidle store (by simp [hsplit]) (hown.trans hx.place_eq)
          rw [he] at hnothing
          cases hnothing
  · refine .inl ⟨d, ?_, hid, hhash⟩
    rw [hdomains]
    exact hu.seen later look earlier d hsplit (.inl hlooked) fun y hy hy' => hstored ⟨y, hy, hy'⟩

/-- What is still deployed when a call has marked holds what the call stored, or the settings were
stored by another call. -/
theorem accounts_of_mark (hu : u.IsWatched) (hx : Follows place x u v) {d : Domain}
    (hdomains : v.tables.domains = u.tables.domains) (honly : StoredOnly place d u.history)
    (hstored : x.stored? = none) (hid : r.domainId = d.id)
    (hhash : r.deployedHash = some d.configHash) (hr : u.Accounts r) : v.Accounts r := by
  rw [Accounts, hx.history_eq]
  rcases hr with hcurrent | hovertaken | ⟨later, earlier, store, hsplit, hstore, hnone, hunmarked⟩
  · refine .inl ?_
    rw [Tables.IsCurrent, hdomains]
    exact hcurrent
  · exact .inr (.inl (hovertaken.cons x))
  · by_cases hown : store.place = place
    · obtain ⟨e, he, heid⟩ := hstore
      obtain rfl := honly store (by simp [hsplit]) hown e he
      refine .inl ⟨e, ?_, heid, hhash⟩
      rw [hdomains]
      exact hu.seen later store earlier e hsplit (.inr he) (heid ▸ hnone)
    · refine .inr (.inr ⟨x :: later, earlier, store, by rw [hsplit]; rfl, hstore, ?_, ?_⟩)
      · refine List.forall_mem_cons.2 ⟨?_, hnone⟩
        rintro ⟨e, he, -⟩
        rw [hstored] at he
        cases he
      · refine List.forall_mem_cons.2 ⟨fun hmine => hown ?_, hunmarked⟩
        rw [← hmine.1, hx.place_eq]

theorem does (hu : u.IsWatched) (h : Does place u v) : v.IsWatched := by
  obtain ⟨x, hx⟩ := h.follows hu.ids_nodup
  refine ⟨hx.ids_nodup, fun _ _ _ _ => hu.seen_of_follows hx, fun r hr hstatus => ?_⟩
  have hlast : ∀ {place e answer history}, v.history = ⟨place, e, answer⟩ :: history →
      x = ⟨place, e, answer⟩ :=
    fun hhistory => (List.cons.inj (hx.history_eq.symm.trans hhistory)).1
  cases h with
  | looks name =>
      obtain rfl := hlast rfl
      exact accounts_of_follows hx nofun (hu.accounted r hr hstatus)
  | hears server call answer =>
      obtain rfl := hlast rfl
      exact accounts_of_follows hx nofun (hu.accounted r hr hstatus)
  | @records now server d look hidle hlook hplace hlooked =>
      obtain rfl := hlast rfl
      rcases Tables.mem_putDeployment _ _ _ hr with hold | ⟨hid, hserver, -, hhash⟩
      · exact accounts_of_follows hx nofun (hu.accounted r hold hstatus)
      · refine hu.accounts_of_record hx (Tables.domains_putDeployment _ _ _) hidle hlook hplace
          hlooked ?_ rfl hid.symm (hhash _ rfl)
        rw [hid, hserver]
        rfl
  | fails now id server error =>
      obtain rfl := hlast rfl
      rcases Tables.mem_putDeployment _ _ _ hr with hold | ⟨-, -, hfailed, -⟩
      · exact accounts_of_follows hx nofun (hu.accounted r hold hstatus)
      · cases hfailed.symm.trans hstatus
  | drops now id server =>
      obtain rfl := hlast rfl
      exact accounts_of_follows hx nofun (hu.accounted r (Tables.mem_dropDeployment.1 hr).1 hstatus)
  | stores now id patch =>
      obtain rfl := hlast rfl
      refine accounts_of_follows hx nofun (hu.accounted r ?_ hstatus)
      rw [← Tables.deployments_updateDomain id patch]
      exact hr
  | @marks now d honly =>
      obtain rfl := hlast rfl
      obtain ⟨hold, hfresh⟩ := Tables.mem_markOutdated hr hstatus
      by_cases hid : r.domainId = d.id
      · exact hu.accounts_of_mark hx rfl honly rfl hid (hfresh hid) (hu.accounted r hold hstatus)
      · refine accounts_of_follows hx (fun hmarked => hid ?_) (hu.accounted r hold hstatus)
        exact (Option.some.inj hmarked).symm

end Site.IsWatched

end

section

open Program (Meets)

variable {place : Nat} {u v : Site} {d : Domain} {α : Type}

theorem stable_idle : Stable (Others place) fun u => Idle place u.history := by
  rintro u v hu ⟨x, hx, hhistory⟩
  rw [hhistory]
  exact List.forall_mem_cons.2 ⟨fun hown => absurd hown hx, hu⟩

theorem stable_storedOnly : Stable (Others place) fun u => StoredOnly place d u.history := by
  rintro u v hu ⟨x, hx, hhistory⟩
  rw [hhistory]
  exact List.forall_mem_cons.2 ⟨fun hown => absurd hown hx, hu⟩

theorem stable_looked : Stable (Others place) fun u =>
    ∃ look ∈ u.history, look.place = place ∧ look.looked? = some d := by
  rintro u v ⟨look, hlook, hlooked⟩ ⟨x, hx, hhistory⟩
  rw [hhistory]
  exact ⟨look, List.mem_cons_of_mem x hlook, hlooked⟩

theorem stable_settled : Stable (Others place) fun u => Settled place u.history := by
  rintro u v hu ⟨x, hx, hhistory⟩ later store earlier hsplit hown d hd
  rw [hhistory] at hsplit
  rcases List.cons_eq_append_iff.1 hsplit with ⟨rfl, hcons⟩ | ⟨later, rfl, hearlier⟩
  · obtain ⟨rfl, -⟩ := List.cons.inj hcons
    exact absurd hown hx
  · obtain ⟨mark, hmark, hmarked⟩ := hu later store earlier hearlier hown d hd
    exact ⟨mark, List.mem_cons_of_mem x hmark, hmarked⟩

theorem Idle.settled (h : Idle place u.history) : Settled place u.history := by
  intro later store earlier hsplit hown d hd
  have hnothing := h store (by simp [hsplit]) hown
  rw [hd] at hnothing
  cases hnothing

/-- Whoever has just marked what it stored has nothing left to mark. -/
theorem StoredOnly.settled (h : StoredOnly place d u.history) (now : Timestamp) :
    Settled place (u.served place now (.markOutdated d.id d.configHash)).history := by
  intro later store earlier hsplit hown e he
  rcases List.cons_eq_append_iff.1 hsplit with ⟨rfl, hcons⟩ | ⟨later, rfl, hearlier⟩
  · obtain ⟨rfl, -⟩ := List.cons.inj hcons
    cases he
  · obtain rfl := h store (by simp [hearlier]) hown e he
    exact ⟨_, List.mem_cons_self, rfl, rfl⟩

/-- A call that has stored nothing may end with any result. -/
theorem meets_pure {result : α} (hidle : Idle place u.history) :
    Meets (Site.acts place) (Others place) (Does place) (pure result)
      (fun _ v => Settled place v.history) u :=
  Meets.pure stable_settled hidle.settled

theorem meets_store {call : StoreCall} {f : call.Reply → Service DispatchError α}
    {P : Site → Prop} {post : Except DispatchError α → Site → Prop}
    (hP : Stable (Others place) P) (hu : P u)
    (hnext : ∀ now u, P u → Does place u (u.served place now call) ∧
      (f (u.tables.serve now call).1).run.Meets (Site.acts place) (Others place) (Does place) post
        (u.served place now call)) :
    (Service.store call >>= f).run.Meets (Site.acts place) (Others place) (Does place) post u := by
  refine Meets.store hP hu (fun reply u v hu hacts => ?_) (fun failure u v hu hacts => ?_)
  · obtain ⟨now, hreply, rfl⟩ := Site.acts_store.1 hacts
    obtain rfl := Except.ok.inj hreply
    exact hnext now u hu
  · obtain ⟨now, hreply, -⟩ := Site.acts_store.1 hacts
    cases hreply

theorem meets_mta {server : String} {call : MtaCall} {f : call.Answer → Service DispatchError α}
    {P : Site → Prop} {post : Except DispatchError α → Site → Prop}
    (hP : Stable (Others place) P) (hu : P u)
    (hnext : ∀ answer u, P u → (f answer).run.Meets (Site.acts place) (Others place) (Does place)
      post (u.answered place server call answer)) :
    (Service.mta server call >>= f).run.Meets (Site.acts place) (Others place) (Does place) post
      u := by
  refine Meets.serviceRequest hP hu fun answer u v hu hacts => ?_
  obtain rfl := Site.acts_mta.1 hacts
  exact ⟨.hears server call answer, hnext answer u hu⟩

/-- A call that looks its domain up goes on with what it has seen, or ends. -/
theorem meets_load {name : String} {f : DomainConfig → Service DispatchError α}
    (hidle : Idle place u.history)
    (hnext : ∀ config v, Idle place v.history →
      (∃ look ∈ v.history, look.place = place ∧ look.looked? = some config.domain) →
        (f config).run.Meets (Site.acts place) (Others place) (Does place)
          (fun _ v => Settled place v.history) v) :
    (load name >>= f).run.Meets (Site.acts place) (Others place) (Does place)
      (fun _ v => Settled place v.history) u := by
  rw [load, bind_assoc]
  refine meets_store stable_idle hidle fun now u hidle => ⟨.looks name, ?_⟩
  have hidle' : Idle place (u.looked place name).history :=
    List.forall_mem_cons.2 ⟨fun _ => rfl, hidle⟩
  refine Meets.found (fun config hconfig => ?_) fun _ => meets_pure hidle'
  refine hnext config _ hidle' ⟨_, List.mem_cons_self, rfl, ?_⟩
  rw [looked?_domainByName]
  exact congrArg (Option.map DomainConfig.domain) hconfig

theorem meets_checkServer {registry : Registry} {server : String}
    {f : Unit → Service DispatchError α} (hidle : Idle place u.history)
    (hnext : (f ()).run.Meets (Site.acts place) (Others place) (Does place)
      (fun _ v => Settled place v.history) u) :
    (checkServer registry server >>= f).run.Meets (Site.acts place) (Others place) (Does place)
      (fun _ v => Settled place v.history) u := by
  rw [checkServer]
  split
  · exact hnext
  · exact meets_pure hidle

theorem meets_deploy (registry : Registry) (name server : String) (hidle : Idle place u.history) :
    (deploy registry name server).run.Meets (Site.acts place) (Others place) (Does place)
      (fun _ v => Settled place v.history) u := by
  refine meets_load hidle fun config u hidle hlook => meets_checkServer hidle ?_
  refine meets_mta (stable_idle.and stable_looked) ⟨hidle, hlook⟩ fun answer u hu => ?_
  have hidle : Idle place (u.answered place server _ answer).history :=
    List.forall_mem_cons.2 ⟨fun _ => rfl, hu.1⟩
  obtain ⟨look, hlook, hown, hlooked⟩ := hu.2
  cases answer with
  | ok _ =>
      change (Service.store _ : Service DispatchError _).run.Meets _ _ _ _ _
      rw [← bind_pure (Service.store _)]
      refine meets_store (stable_idle.and stable_looked)
        ⟨hidle, look, List.mem_cons_of_mem _ hlook, hown, hlooked⟩ fun now u hu => ?_
      obtain ⟨hidle, look, hlook, hown, hlooked⟩ := hu
      exact ⟨.records now server hidle hlook hown hlooked,
        meets_pure (List.forall_mem_cons.2 ⟨fun _ => rfl, hidle⟩)⟩
  | error e =>
      refine meets_store stable_idle hidle fun now u hidle => ⟨.fails now _ server _, ?_⟩
      exact meets_pure (List.forall_mem_cons.2 ⟨fun _ => rfl, hidle⟩)

theorem meets_undeploy (registry : Registry) (name server : String) (hidle : Idle place u.history) :
    (undeploy registry name server).run.Meets (Site.acts place) (Others place) (Does place)
      (fun _ v => Settled place v.history) u := by
  refine meets_load hidle fun config u hidle _ => meets_checkServer hidle ?_
  refine meets_mta stable_idle hidle fun answer u hidle => ?_
  have hidle : Idle place (u.answered place server _ answer).history :=
    List.forall_mem_cons.2 ⟨fun _ => rfl, hidle⟩
  cases answer with
  | ok _ =>
      change (Service.store _ : Service DispatchError _).run.Meets _ _ _ _ _
      rw [← bind_pure (Service.store _)]
      refine meets_store stable_idle hidle fun now u hidle => ⟨.drops now _ server, ?_⟩
      exact meets_pure (List.forall_mem_cons.2 ⟨fun _ => rfl, hidle⟩)
  | error e => exact meets_pure hidle

theorem meets_update (name : String) (patch : DomainPatch) (hidle : Idle place u.history) :
    (update name patch).run.Meets (Site.acts place) (Others place) (Does place)
      (fun _ v => Settled place v.history) u := by
  refine meets_load hidle fun config u hidle _ => ?_
  refine meets_store stable_idle hidle fun stored u hidle => ⟨.stores stored _ patch, ?_⟩
  refine Meets.found (fun d hd => ?_) fun hnone => ?_
  · have honly : StoredOnly place d
        (u.served place stored (.updateDomain config.domain.id patch)).history := by
      refine List.forall_mem_cons.2 ⟨fun _ e he => ?_, fun x hx hown e he => ?_⟩
      · exact Option.some.inj (he.symm.trans hd)
      · rw [hidle x hx hown] at he
        cases he
    refine meets_store stable_storedOnly honly fun marked u honly => ⟨.marks marked honly, ?_⟩
    exact Meets.pure stable_settled (honly.settled marked)
  · exact meets_pure (List.forall_mem_cons.2 ⟨fun _ => hnone, hidle⟩)

theorem meets_program (c : Call) (hidle : Idle place u.history) :
    c.program.Meets (Site.acts place) (Others place) (Does place)
      (fun _ v => Settled place v.history) u := by
  cases c with
  | deploy registry name server => exact meets_deploy registry name server hidle
  | undeploy registry name server => exact meets_undeploy registry name server hidle
  | update name patch => exact meets_update name patch hidle

end

/-- When all calls are over, whatever counts as deployed holds the settings of the day, unless they
were overtaken: looked up before an update stored other ones, and recorded after it had marked. -/
theorem Workshop.Reachable.current_or_overtaken {t : Tables} {w : Workshop}
    (hids : (t.domains.map Domain.id).Nodup)
    (ht : ∀ r ∈ t.deployments, r.status = .known .deployed → t.IsCurrent r)
    (hw : Reachable t w) (hover : w.IsOver) :
    ∀ r ∈ w.site.tables.deployments, r.status = .known .deployed →
      w.site.tables.IsCurrent r ∨ Overtaken w.site.history r := by
  have hstart : Site.IsWatched ⟨t, []⟩ :=
    ⟨hids, by simp, fun r hr hstatus => .inl (ht r hr hstatus)⟩
  have horderly : Orderly Site.IsWatched Does (fun place u => Settled place u.history) w :=
    hw.orderly hstart
      (fun place c u hnone => meets_program c fun x hx hown => absurd hown (hnone x hx))
      fun place u v hu hdoes => hu.does hdoes
  intro r hr hstatus
  rcases horderly.holds.accounted r hr hstatus with
    hcurrent | hovertaken | ⟨later, earlier, store, hsplit, ⟨d, hd, hid⟩, -, hunmarked⟩
  · exact .inl hcurrent
  · exact .inr hovertaken
  · -- who stored last has come to its end, so it has marked
    have hplace := horderly.known store (by simp [hsplit])
    have hsettled := horderly.post_of_isOver hover hplace
    obtain ⟨mark, hmark, hown, hmarked⟩ := hsettled later store earlier hsplit rfl d hd
    exact absurd ⟨hown, hid ▸ hmarked⟩ (hunmarked mark hmark)

namespace Trial

/-- A deploy looks its settings up and waits; an update runs from its beginning to its end; then the
deploy goes on. -/
def cues : List Cue :=
  [.begins deploy, .turn 0, .begins (.update "here.example" patch), .turn 1, .turn 1, .turn 1,
    .turn 0, .turn 0]

/-- The deploy was overtaken by the update. -/
def outrun : Workshop := .played fair tables cues

theorem reachable_outrun : Workshop.Reachable tables outrun :=
  Workshop.reachable_played (fun _ => rfl) cues

def row : Deployment :=
  ⟨.issued 0, domain.id, "north", .known .deployed, some domain.configHash, 0, none, some ⟨0, 0⟩⟩

theorem mem_row : row ∈ outrun.site.tables.deployments := by
  have hrows : outrun.site.tables.deployments = [row] := rfl
  rw [hrows]
  exact List.mem_cons_self

theorem domains_outrun : outrun.site.tables.domains = [changed] := rfl

theorem calls_outrun : outrun.calls.map Sigma.fst = [deploy, .update "here.example" patch] := rfl

theorem isOver_outrun : outrun.IsOver := by
  have hresults : (outrun.calls.all fun call => call.2.result?.isSome) = true := rfl
  intro call hcall
  obtain ⟨result, hresult⟩ := Option.isSome_iff_exists.1 (List.all_eq_true.1 hresults call hcall)
  exact ⟨result, Program.ends_of_result? hresult⟩

theorem not_isCurrent_row : ¬ outrun.site.tables.IsCurrent row := by
  rintro ⟨d, hd, -, hhash⟩
  rw [domains_outrun, List.mem_singleton] at hd
  subst hd
  exact configHash_ne (Option.some.inj hhash)

theorem nodup_ids : (tables.domains.map Domain.id).Nodup := List.nodup_singleton _

end Trial

open Trial in
/-- The deployment that is left behind an update holds settings that were overtaken. -/
theorem Trial.overtaken_by_update :
    (tables.domains.map Domain.id).Nodup ∧
      (∀ r ∈ tables.deployments, r.status = .known .deployed → tables.IsCurrent r) ∧
      Workshop.Reachable tables outrun ∧ outrun.IsOver ∧
      row ∈ outrun.site.tables.deployments ∧ row.status = .known .deployed ∧
      Overtaken outrun.site.history row := by
  refine ⟨nodup_ids, nofun, reachable_outrun, isOver_outrun, mem_row, rfl, ?_⟩
  exact (Workshop.Reachable.current_or_overtaken nodup_ids nofun reachable_outrun isOver_outrun row
    mem_row rfl).resolve_left not_isCurrent_row

open Trial in
/-- It is not so that, when all deploys and updates of one domain are over, what counts as deployed
holds the settings of the day. -/
theorem Trial.may_hide_drift :
    ¬ ∀ (t : Tables) (w : Workshop) (name : String), (t.domains.map Domain.id).Nodup →
      (∀ r ∈ t.deployments, r.status = .known .deployed → t.IsCurrent r) →
      Workshop.Reachable t w → w.IsOver →
      (∀ c ∈ w.calls.map Sigma.fst, c.name = name ∧
        ∀ registry name server, c ≠ .undeploy registry name server) →
      ∀ r ∈ w.site.tables.deployments, r.status = .known .deployed →
        w.site.tables.IsCurrent r := by
  intro hclaim
  refine not_isCurrent_row (hclaim tables outrun "here.example" nodup_ids nofun reachable_outrun
    isOver_outrun ?_ row mem_row rfl)
  rw [calls_outrun]
  simp [deploy, Call.name]

end Mailroom.DomainSync
