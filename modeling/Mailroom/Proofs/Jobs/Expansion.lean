import Mailroom.Proofs.Access.Keys
import Mailroom.Proofs.Jobs.Counters
import Mailroom.Proofs.Routing.Selection

/-!
Jobs made out of campaigns.  The recipients of a list are fetched in pages and become items as they
come; the items are those that one pass over the whole list would plan.  Main statements: a request
that can be met makes a job with one item for each recipient up to the limit, each with the server
and the variant of its place, and a request that is refused leaves all tables as they are.
-/

namespace Mailroom

open Program (Asks Completes)
open Service (Gives asks_bind asks_found asks_liftExcept asks_request asks_store completes_of_bind
  completes_store)

variable {around : Surroundings} {actor : Actor} {s v w : Scene} {registry : Registry}
  {standard : StrategyKind}

/-- The server of the item at a place, for a strategy and servers with weights. -/
structure IsServerAt (kind : StrategyKind) (servers : List String) (weight : String → Nat)
    (place : Nat) (server : String) : Prop where
  turn : kind = .roundRobin → servers[place % servers.length]? = some server
  first : kind = .firstHealthy ∨ servers.length = 1 → servers[0]? = some server
  weightless : kind = .weighted → (servers.map weight).sum = 0 → servers[0]? = some server
  weighted : kind = .weighted → 0 < (servers.map weight).sum →
    ∃ i, InBucket (servers.map weight) (place % (servers.map weight).sum) i ∧
      servers[i]? = some server

/-- The variant of the item at a place; a weight below zero counts as zero. -/
structure IsVariantAt (variants : List Variant) (place : Nat) (variant : Option Uuid) : Prop where
  none : (variants.map fun v => v.weight.toNat).sum = 0 → variant = none
  some : 0 < (variants.map fun v => v.weight.toNat).sum →
    ∃ i v, InBucket (variants.map fun v => v.weight.toNat)
      (place % (variants.map fun v => v.weight.toNat).sum) i ∧
        variants[i]? = some v ∧ variant = some v.id

/-- An item is for the recipient at a place, and has the server and the variant of the place. -/
structure Item.IsAssigned (i : Item) (rows : List Recipient) (variants : List Variant)
    (kind : StrategyKind) (servers : List String) (weight : String → Nat) (place : Nat) : Prop where
  recipient : ∃ r, rows[place]? = some r ∧ i.recipientId = r.id
  server : IsServerAt kind servers weight place i.server
  variant : IsVariantAt variants place i.variantId

theorem isServerAt_placeAt (kind : StrategyKind) {servers : List String} (hservers : servers ≠ [])
    (weight : String → Nat) (place : Nat) :
    IsServerAt kind servers weight place (servers.getD
      ((Strategy.forServers kind servers weight).placeAt servers.length place) "") := by
  have hlength : 0 < servers.length := List.length_pos_iff.2 hservers
  have hfound : ∀ i, i < servers.length → servers[i]? = some (servers.getD i "") := by
    intro i hi
    simp [hi]
  have hweights : Selection.weightsFor (servers.map weight) servers.length =
      servers.map weight := by
    simpa using Selection.weightsFor_length (servers.map weight)
  constructor
  · rintro rfl
    exact hfound _ (Nat.mod_lt place hlength)
  · intro hfirst
    have hzero : (Strategy.forServers kind servers weight).placeAt servers.length place = 0 := by
      rcases hfirst with rfl | hone
      · rfl
      · have hlt := (Strategy.forServers kind servers weight).placeAt_lt place hlength
        omega
    rw [hzero]
    exact hfound 0 hlength
  · rintro rfl hzero
    rw [← hweights] at hzero
    rw [Strategy.forServers, Strategy.placeAt_of_sum_eq_zero hzero]
    exact hfound 0 hlength
  · rintro rfl hpos
    have hpos' : 0 < (Selection.weightsFor (servers.map weight) servers.length).sum := by
      rwa [hweights]
    have hbucket := Strategy.inBucket_placeAt place hpos'
    rw [hweights] at hbucket
    exact ⟨_, hbucket, hfound _ (Strategy.placeAt_lt _ place hlength)⟩

theorem isVariantAt_pick (variants : List Variant) (place : Nat) :
    IsVariantAt variants place (Variant.pick variants place) := by
  constructor
  · intro hzero
    have hnone : bucketOf (variants.map fun v => v.weight.toNat) place = none := by
      rw [bucketOf_eq_none_iff, totalWidth_eq_sum, hzero]
      exact Nat.zero_le place
    simp [Variant.pick, totalWidth_eq_sum, hzero, hnone]
  · intro hpos
    obtain ⟨i, hi⟩ := exists_inBucket (Nat.mod_lt place hpos)
    have hlt : i < variants.length := by simpa using hi.lt_length
    have hbucket := bucketOf_eq_some_iff.2 hi
    exact ⟨i, variants[i], hi, List.getElem?_eq_getElem hlt,
      by simp [Variant.pick, totalWidth_eq_sum, hbucket, hlt]⟩

namespace JobRequest

namespace Expansion

variable {x : Expansion} {before rows : List Recipient} {selection : Selection}

/-- How many of some recipients the limit lets through. -/
def quota (x : Expansion) (count : Nat) : Nat :=
  match x.limit with
  | some limit => min limit count
  | none => count

def itemAt (x : Expansion) (place : Nat) (r : Recipient) : NewItem :=
  ⟨r.id, Variant.pick x.variants place,
    x.servers.getD (x.strategy.placeAt x.servers.length place) ""⟩

/-- The items for all recipients of a list. -/
def plan (x : Expansion) (rows : List Recipient) : List NewItem :=
  (rows.take (x.quota rows.length)).mapIdx x.itemAt

theorem quota_le (x : Expansion) (count : Nat) : x.quota count ≤ count := by
  unfold quota
  split
  · exact Nat.min_le_right _ _
  · exact Nat.le_refl _

theorem length_plan (x : Expansion) (rows : List Recipient) :
    (x.plan rows).length = x.quota rows.length := by
  simp [plan, x.quota_le rows.length]

/-- A plan that is full does not grow. -/
theorem plan_append_of_isFull (hfull : x.isFull (x.plan before).length = true)
    (rows : List Recipient) : x.plan (before ++ rows) = x.plan before := by
  cases hlimit : x.limit with
  | none => simp [isFull, hlimit] at hfull
  | some limit =>
      have hle : limit ≤ before.length := by
        simpa [isFull, length_plan, quota, hlimit] using hfull
      have hall : min limit (before ++ rows).length = limit := by
        rw [List.length_append]
        omega
      simp only [plan, quota, hlimit, hall, Nat.min_eq_left hle, List.take_append_of_le_length hle]

theorem plan_take_of_isFull {rows : List Recipient} {count : Nat}
    (hfull : x.isFull (x.plan (rows.take count)).length = true) :
    x.plan (rows.take count) = x.plan rows := by
  have hall := plan_append_of_isFull hfull (rows.drop count)
  rwa [List.take_append_drop, eq_comm] at hall

/-- A plan that is not full has an item for every recipient, and takes one more. -/
theorem plan_concat_of_not_isFull (hfull : ¬ x.isFull (x.plan before).length = true)
    (r : Recipient) :
    x.plan (before ++ [r]) = x.plan before ++ [x.itemAt (x.plan before).length r] := by
  have hbefore : x.quota before.length = before.length := by
    cases hlimit : x.limit with
    | none => simp [quota, hlimit]
    | some limit =>
        simp only [isFull, length_plan, quota, hlimit, decide_eq_true_eq] at hfull ⊢
        omega
  have hmore : x.quota (before ++ [r]).length = (before ++ [r]).length := by
    cases hlimit : x.limit with
    | none => simp [quota, hlimit]
    | some limit =>
        simp only [isFull, length_plan, quota, hlimit, decide_eq_true_eq, List.length_append,
          List.length_singleton] at hfull hbefore ⊢
        omega
  rw [length_plan, hbefore, plan, plan, hbefore, hmore, List.take_length, List.take_length,
    List.mapIdx_concat]

/-- Recipients that come after others are planned with them. -/
theorem extend_plan (hservers : x.servers ≠ [])
    (hselection : selection.IsAt x.strategy x.key x.servers.length (x.plan before).length)
    (hlength : before.length + rows.length < 2 ^ 64) :
    (x.extend rows (x.plan before) selection).1 = x.plan (before ++ rows) ∧
      (x.extend rows (x.plan before) selection).2.IsAt x.strategy x.key x.servers.length
        (x.plan (before ++ rows)).length := by
  induction rows generalizing before selection with
  | nil =>
      rw [List.append_nil]
      exact ⟨rfl, hselection⟩
  | cons r rest ih =>
      by_cases hfull : x.isFull (x.plan before).length = true
      · rw [plan_append_of_isFull hfull, extend, if_pos hfull]
        exact ⟨rfl, hselection⟩
      · have hle : (x.plan before).length ≤ before.length :=
          (x.length_plan before).trans_le (x.quota_le _)
        rw [List.length_cons] at hlength
        obtain ⟨hplace, hnext⟩ := Selection.select_isAt hselection hservers (by omega)
        have hplan := plan_concat_of_not_isFull hfull r
        have hlonger : (x.plan (before ++ [r])).length = (x.plan before).length + 1 := by
          rw [hplan, List.length_append, List.length_singleton]
        have hless : (before ++ [r]).length + rest.length < 2 ^ 64 := by
          rw [List.length_append, List.length_singleton]
          omega
        rw [← hlonger] at hnext
        have hrest := ih hnext hless
        rw [List.append_assoc, List.singleton_append, hplan, itemAt] at hrest
        simpa only [extend, if_neg hfull, hplace, Option.getD_some] using hrest

end Expansion

/-- Rows up to an offset and the page behind them are the rows up to the next offset. -/
theorem take_append_page {α : Type} (rows : List α) (offset : Nat) :
    rows.take offset ++ (rows.drop offset).take pageSize =
      rows.take (offset + ((rows.drop offset).take pageSize).length) := by
  rw [List.take_add, List.length_take, ← List.take_eq_take_min]

theorem Expansion.extend_page {x : Expansion} {rows : List Recipient} {offset : Nat}
    {selection : Selection} (hservers : x.servers ≠ []) (hlength : rows.length < 2 ^ 64)
    (hselection : selection.IsAt x.strategy x.key x.servers.length
      (x.plan (rows.take offset)).length) {page : List Recipient}
    (hpage : (rows.drop offset).take pageSize = page) :
    (x.extend page (x.plan (rows.take offset)) selection).1 =
        x.plan (rows.take (offset + page.length)) ∧
      (x.extend page (x.plan (rows.take offset)) selection).2.IsAt x.strategy x.key
        x.servers.length (x.plan (rows.take (offset + page.length))).length := by
  have hshort : (rows.take offset).length + page.length ≤ rows.length := by
    simp only [← hpage, List.length_take, List.length_drop]
    omega
  have hextended := extend_plan hservers hselection (Nat.lt_of_le_of_lt hshort hlength)
  rwa [← hpage, take_append_page, hpage] at hextended

theorem gives_expand {x : Expansion} {list : Uuid} {rows : List Recipient} {pages offset : Nat}
    {selection : Selection} (hservers : x.servers ≠ []) (hw : w.tables.recipientsOf list = rows)
    (hlength : rows.length < 2 ^ 64) (hpages : rows.length ≤ offset + pageSize * pages)
    (hselection : selection.IsAt x.strategy x.key x.servers.length
      (x.plan (rows.take offset)).length) :
    (expand x list pages offset (x.plan (rows.take offset)) selection).Gives actor w
      fun items v => items = x.plan rows ∧ v.tables = w.tables := by
  induction pages generalizing w offset selection with
  | zero =>
      rw [List.take_of_length_le (by omega)]
      exact .pure ⟨rfl, rfl⟩
  | succ pages ih =>
      apply Gives.bind
      apply Gives.store
      intro now v hv
      replace hv : v.tables = w.tables := hv
      generalize hpage : (rows.drop offset).take pageSize = page
      have hreply : (w.tables.serve now
          (.recipients list (Int.ofNat pageSize) (Int.ofNat offset))).1 =
            ⟨page, Int.ofNat rows.length⟩ := by
        rw [← hpage, ← hw]
        rfl
      rw [hreply]
      dsimp only
      split
      · rename_i hnone
        have hend : rows.length ≤ offset := by
          simpa [pageSize, ← hpage] using hnone
        rw [List.take_of_length_le hend]
        exact .pure ⟨rfl, hv⟩
      · obtain ⟨hlonger, hnext⟩ := Expansion.extend_page hservers hlength hselection hpage
        rw [hlonger]
        split
        · -- the limit was reached within the page
          rename_i hfull
          exact .pure ⟨Expansion.plan_take_of_isFull hfull.1, hv⟩
        · split
          · rename_i htotal
            rw [List.take_of_length_le (Int.ofNat_le.1 htotal)]
            exact .pure ⟨rfl, hv⟩
          · rename_i htotal
            have hmore := mt Int.ofNat_le.2 htotal
            have hwhole : page.length = pageSize := by
              simp only [← hpage, List.length_take, List.length_drop] at hmore ⊢
              omega
            rw [hwhole] at hnext ⊢
            rw [← hv]
            apply ih (hv ▸ hw) _ hnext
            rw [Nat.mul_succ] at hpages
            omega

/-- All recipients of a list are planned. -/
theorem gives_expand_all {x : Expansion} {list : Uuid} {rows : List Recipient}
    (hservers : x.servers ≠ []) (hw : w.tables.recipientsOf list = rows)
    (hlength : rows.length < 2 ^ 64) :
    (expand x list pageLimit 0 [] .initial).Gives actor w
      fun items v => items = x.plan rows ∧ v.tables = w.tables := by
  have hpages : rows.length ≤ 0 + pageSize * pageLimit := by
    have hlimit : 2 ^ 64 ≤ 0 + pageSize * pageLimit := by decide
    omega
  have hnone : x.plan (rows.take 0) = [] := by simp [Expansion.plan]
  have hstart : Selection.initial.IsAt x.strategy x.key x.servers.length
      (x.plan (rows.take 0)).length := by
    rw [hnone]
    exact Selection.isAt_initial _ _ _
  rw [← hnone]
  exact gives_expand hservers hw hlength hpages hstart

theorem distinctServers_of_known {names : List String}
    (hknown : ∀ name ∈ names, registry.contains name = true) (chosen : List String) :
    distinctServers registry names chosen =
      .ok (chosen ++ (names.filter fun name => !chosen.contains name).eraseDups) := by
  induction names generalizing chosen with
  | nil => simp [distinctServers]
  | cons name rest ih =>
      have hname := hknown name List.mem_cons_self
      have hrest := ih fun other hother => hknown other (List.mem_cons_of_mem name hother)
      by_cases hchosen : chosen.contains name = true
      · simp only [distinctServers, hname, not_true_eq_false, if_false, hchosen, if_true, hrest,
          List.filter_cons, Bool.not_true, Bool.false_eq_true]
      · have hsame : (rest.filter fun other => !(chosen ++ [name]).contains other) =
            (rest.filter fun other => !chosen.contains other).filter fun other =>
              !other == name := by
          rw [List.filter_filter]
          apply List.filter_congr
          intro other _
          rw [Bool.eq_iff_iff]
          simp [and_comm]
        rw [Bool.not_eq_true] at hchosen
        simp only [distinctServers, hname, not_true_eq_false, if_false, hchosen,
          Bool.false_eq_true, hrest, List.filter_cons, Bool.not_false, if_true,
          List.eraseDups_cons, hsame, List.append_assoc, List.singleton_append]

theorem checkedServers_of_known {servers : List String} (hservers : servers ≠ [])
    (hknown : ∀ name ∈ servers, registry.contains name = true) :
    checkedServers registry servers = .ok servers.eraseDups := by
  have hsome : servers.isEmpty = false := by
    cases servers with
    | nil => exact absurd rfl hservers
    | cons name rest => rfl
  simp [checkedServers, hsome, distinctServers_of_known hknown]

theorem checkLimit_of_le {limit : Option Int} (hlimit : ∀ n, limit = some n → 1 ≤ n) :
    checkLimit limit = .ok () := by
  cases limit with
  | none => rfl
  | some n =>
      have hnot : ¬ n < 1 := by
        have hle := hlimit n rfl
        omega
      rw [checkLimit, if_neg hnot]

theorem eraseDups_ne_nil {names : List String} (hnames : names ≠ []) : names.eraseDups ≠ [] := by
  cases names with
  | nil => exact absurd rfl hnames
  | cons name rest => simp [List.eraseDups_cons]

/-- How many items a job has whose campaign has so many recipients. -/
def quota (r : JobRequest) (count : Nat) : Nat :=
  match r.dryRunLimit with
  | some limit => min count limit.toNat
  | none => count

/-- A request can be met: its campaign is there, its servers are known and its limit lets something
through.  A list of recipients is shorter than the range of the counters that go through it. -/
structure CanBeMet (r : JobRequest) (registry : Registry) (t : Tables) (c : Campaign) : Prop where
  campaign : t.campaigns.find? (fun c => c.id == r.campaignId) = some c
  servers : r.servers ≠ []
  known : ∀ name ∈ r.servers, registry.contains name = true
  limit : ∀ limit, r.dryRunLimit = some limit → 1 ≤ limit
  length : (t.recipientsOf c.listId).length < 2 ^ 64

/-- A job is the only new one, and it is what was asked for: it has the servers of the request, each
once, and in the order of the recipients one item for each of them up to the limit, all of them
counted as pending. -/
structure IsMet (r : JobRequest) (registry : Registry) (standard : StrategyKind) (c : Campaign)
    (t t' : Tables) (j : Job) : Prop where
  jobs : t'.jobs = t.jobs ++ [j]
  items : t'.items = t.items ++ t'.itemsOf j.id
  servers : j.serverNames = r.servers.eraseDups
  length : (t'.itemsOf j.id).length = r.quota (t.recipientsOf c.listId).length
  item : ∀ (place : Nat) (i : Item), (t'.itemsOf j.id)[place]? = some i →
    i.IsAssigned (t.recipientsOf c.listId) (t.variantsOf c.id) (r.strategy.getD standard)
      j.serverNames registry.weight place
  stats : j.stats = ⟨r.quota (t.recipientsOf c.listId).length,
    r.quota (t.recipientsOf c.listId).length, 0, 0, 0⟩

end JobRequest

theorem Job.serverNames_ofStrings {j : Job} {names : List String}
    (hj : j.servers = .ofStrings names) : j.serverNames = names := by
  rw [serverNames, hj, Json.ofStrings]
  simp only [ApiKey.mapM_str?_map, Option.getD_some]

namespace Tables

variable {now : Timestamp}

theorem getElem?_newItems {job : Uuid} {serial place : Nat} {ns : List NewItem} {i : Item}
    (hi : (newItems job now serial ns)[place]? = some i) :
    ns[place]? = some ⟨i.recipientId, i.variantId, i.server⟩ := by
  induction ns generalizing serial place with
  | nil => simp [newItems] at hi
  | cons n rest ih =>
      cases place with
      | zero =>
          obtain rfl : _ = i := Option.some.inj hi
          rfl
      | succ place => exact ih (by simpa [newItems] using hi)

theorem itemsOf_createJob (hs : InOrder s) (n : NewJob) (ns : List NewItem) :
    (s.tables.createJob n ns now).2.itemsOf (.issued s.tables.issued) =
      newItems (.issued s.tables.issued) now (s.tables.issued + 1) ns := by
  have hnew : ∀ i ∈ newItems (.issued s.tables.issued) now (s.tables.issued + 1) ns,
      (i.jobId == .issued s.tables.issued) = true := by
    intro i hi
    simp [(mem_newItems hi).1]
  have hnone := hs.itemsOf_issued
  rw [itemsOf] at hnone
  simp only [itemsOf, createJob, List.filter_append, hnone, List.nil_append,
    List.filter_eq_self.2 hnew]

end Tables

namespace JobRequest

variable {r : JobRequest} {c : Campaign}

def expansion (r : JobRequest) (registry : Registry) (standard : StrategyKind) (c : Campaign)
    (variants : List Variant) : Expansion :=
  ⟨.forServers (r.strategy.getD standard) r.servers.eraseDups registry.weight, c.id.display,
    r.servers.eraseDups, variants, r.dryRunLimit.map Int.toNat⟩

theorem quota_expansion {variants : List Variant} (count : Nat) :
    (r.expansion registry standard c variants).quota count = r.quota count := by
  simp only [Expansion.quota, expansion, quota]
  cases r.dryRunLimit with
  | none => rfl
  | some limit => exact Nat.min_comm _ _

theorem isMet_createJob {n : NewJob} {now : Timestamp} (hs : InOrder s)
    (hservers : r.servers ≠ []) (hn : n.servers = r.servers.eraseDups)
    (hw : w.tables = (s.tables.createJob n ((r.expansion registry standard c
      (s.tables.variantsOf c.id)).plan (s.tables.recipientsOf c.listId)) now).2) :
    r.IsMet registry standard c s.tables w.tables
      (s.tables.createJob n ((r.expansion registry standard c (s.tables.variantsOf c.id)).plan
        (s.tables.recipientsOf c.listId)) now).1 := by
  generalize hx : r.expansion registry standard c (s.tables.variantsOf c.id) = x at hw ⊢
  generalize hrows : s.tables.recipientsOf c.listId = rows at hw ⊢
  have hcount : (x.plan rows).length = r.quota rows.length := by
    rw [Expansion.length_plan, ← hx, quota_expansion]
  have hnames : Job.serverNames (s.tables.createJob n (x.plan rows) now).1 = r.servers.eraseDups :=
    Job.serverNames_ofStrings (congrArg Json.ofStrings hn)
  have hitems : w.tables.itemsOf (s.tables.createJob n (x.plan rows) now).1.id =
      Tables.newItems (.issued s.tables.issued) now (s.tables.issued + 1) (x.plan rows) := by
    rw [hw]
    exact Tables.itemsOf_createJob hs n (x.plan rows)
  -- what the plan has at a place is what the recipient, the strategy and the weights have there
  have hplace : ∀ place (i : Item),
      (w.tables.itemsOf (s.tables.createJob n (x.plan rows) now).1.id)[place]? = some i →
        ∃ row, rows[place]? = some row ∧
          x.itemAt place row = ⟨i.recipientId, i.variantId, i.server⟩ := by
    intro place i hi
    rw [hitems] at hi
    have hplanned := Tables.getElem?_newItems hi
    rw [Expansion.plan, List.getElem?_mapIdx, Option.map_eq_some_iff] at hplanned
    obtain ⟨row, hrow, hitem⟩ := hplanned
    simp only [List.getElem?_take, Option.ite_none_right_eq_some] at hrow
    exact ⟨row, hrow.2, hitem⟩
  constructor
  case jobs => rw [hw]; rfl
  case items =>
    rw [hitems, hw]
    rfl
  case servers => exact hnames
  case length => rw [hitems, Tables.length_newItems, hcount, hrows]
  case item =>
    intro place i hi
    obtain ⟨row, hrow, hitem⟩ := hplace place i hi
    rw [Expansion.itemAt, NewItem.mk.injEq] at hitem
    obtain ⟨hrecipient, hvariant, hserver⟩ := hitem
    refine ⟨⟨row, hrows ▸ hrow, hrecipient.symm⟩, ?_, ?_⟩
    · rw [hnames, ← hserver, ← hx]
      exact isServerAt_placeAt _ (eraseDups_ne_nil hservers) _ _
    · rw [← hvariant, ← hx]
      exact isVariantAt_pick _ _
  case stats =>
    rw [hrows, ← hcount]
    rfl

/-- A request that can be met is met. -/
theorem gives_create (hs : InOrder s) (hr : r.CanBeMet registry s.tables c) :
    (r.create registry standard).Gives actor s fun j v =>
      r.IsMet registry standard c s.tables v.tables j := by
  have hservers : r.servers.eraseDups ≠ [] := eraseDups_ne_nil hr.servers
  refine .bind (.ofExcept (checkedServers_of_known hr.servers hr.known) ?_)
  refine .bind (.ofExcept (checkLimit_of_le hr.limit) ?_)
  refine .bind (.store fun _ u hu => ?_)
  replace hu : u.tables = s.tables := hu
  refine .bind (.found hr.campaign ?_)
  refine .bind (.store fun now v hv => ?_)
  replace hv : v.tables = s.tables := hv.trans hu
  have hreply : (u.tables.serve now (.variants c.id)).1 = s.tables.variantsOf c.id := by
    rw [hu]
    rfl
  rw [hreply]
  have hrows : v.tables.recipientsOf c.listId = s.tables.recipientsOf c.listId := by rw [hv]
  dsimp only
  refine .bind ((gives_expand_all hservers hrows hr.length).weaken ?_)
  rintro items w ⟨rfl, hw⟩
  refine .bind (.request fun now x hx => ?_)
  replace hx : x.tables = s.tables := hx.2.1.1.trans (hw.trans hv)
  apply Gives.store
  intro now y hy
  rw [hx] at hy ⊢
  exact isMet_createJob hs hr.servers rfl hy

/-- As long as only its last part may write, a service that ends with an error leaves all tables as
they are. -/
theorem tables_of_error_bind {ε α β : Type} {x : Service ε α} {f : α → Service ε β} {error : ε}
    (hx : Asks Effect.Reads x.run)
    (hf : ∀ a u, (f a).run.Completes (around.acts actor) u (.error error) v → v.tables = u.tables)
    (hrun : (x >>= f).run.Completes (around.acts actor) s (.error error) v) :
    v.tables = s.tables := by
  rcases completes_of_bind hrun with ⟨a, u, hread, hrest⟩ | ⟨_, hread, -⟩
  · exact (hf a u hrest).trans (hx.unmoved hread).tables
  · exact (hx.unmoved hread).tables

theorem tables_of_refused {error : JobError}
    (hrun : (r.create registry standard).run.Completes (around.acts actor) s (.error error) v) :
    v.tables = s.tables := by
  refine tables_of_error_bind (asks_liftExcept _) (fun servers _ hrun => ?_) hrun
  refine tables_of_error_bind (asks_liftExcept _) (fun _ _ hrun => ?_) hrun
  refine tables_of_error_bind (asks_store fun _ _ => rfl) (fun _ _ hrun => ?_) hrun
  refine tables_of_error_bind (asks_found _ _) (fun campaign _ hrun => ?_) hrun
  refine tables_of_error_bind (asks_store fun _ _ => rfl) (fun variants _ hrun => ?_) hrun
  refine tables_of_error_bind (asks_expand (fun _ _ _ _ _ => rfl) _ _ _ _ _ _)
    (fun items _ hrun => ?_) hrun
  refine tables_of_error_bind (asks_request (e := .now) trivial) (fun now u hrun => ?_) hrun
  obtain ⟨answer, hacts, hanswer⟩ := completes_store.1 hrun
  cases answer with
  | ok j => cases hanswer
  | error failure => exact Surroundings.acts_error hacts

/-- A request that can be met always makes the job that was asked for, if the store does not fail;
and a request that is refused, for whatever reason, leaves all tables as they are. -/
theorem create_expands (r : JobRequest) (registry : Registry) (standard : StrategyKind)
    (actor : Actor) (hs : InOrder s) :
    (∀ c, r.CanBeMet registry s.tables c →
      (∃ j v, (r.create registry standard).run.Completes (Surroundings.reliable.acts actor) s
        (.ok j) v) ∧
      ∀ result v, (r.create registry standard).run.Completes (Surroundings.reliable.acts actor) s
        result v → ∃ j, result = .ok j ∧ r.IsMet registry standard c s.tables v.tables j) ∧
    ∀ around error v, (r.create registry standard).run.Completes
      (Surroundings.acts around actor) s (.error error) v → v.tables = s.tables := by
  refine ⟨fun c hr => ?_, fun around error v => tables_of_refused⟩
  have hgives : (r.create registry standard).Gives actor s fun j v =>
      r.IsMet registry standard c s.tables v.tables j := gives_create hs hr
  refine ⟨?_, fun result v hrun => hgives.completes hrun⟩
  have hrun := Circumstances.completes (Rehearsal.reliable_fair "waiting") actor
    (r.create registry standard).run s
  obtain ⟨j, hj, -⟩ := hgives.completes hrun
  exact ⟨j, _, hj ▸ hrun⟩

end JobRequest

namespace Rehearsal

/-- Three recipients are on the campaign's list, and only one of its variants counts. -/
def crowded : Tables where
  campaigns := [campaign]
  variants :=
    [⟨⟨4⟩, campaign.id, "tall", 2, none, none, none, none⟩,
      ⟨⟨5⟩, campaign.id, "short", -1, none, none, none, none⟩]
  recipients := [recipient, { recipient with id := ⟨6⟩ }, { recipient with id := ⟨7⟩ }]

def twoServers : Registry :=
  ⟨[⟨"north", "http://north.example", 1⟩, ⟨"south", "http://south.example", 2⟩]⟩

/-- The campaign is to be sent to the first two of its recipients, by the weights of its servers. -/
def tryOut : JobRequest :=
  ⟨campaign.id, ["north", "south", "north"], some .weighted, none, some 2⟩

end Rehearsal

namespace JobRequest

open Rehearsal (campaign crowded tryOut twoServers)

/-- The second item goes through the heavier server, and to the variant that counts. -/
theorem tryOut_is_met :
    InOrder ⟨crowded, [], []⟩ ∧ tryOut.CanBeMet twoServers crowded campaign ∧
      ∃ j v, (tryOut.create twoServers .roundRobin).run.Completes
          (Surroundings.reliable.acts .engine) ⟨crowded, [], []⟩ (.ok j) v ∧
        j.serverNames = ["north", "south"] ∧ (v.tables.itemsOf j.id).length = 2 ∧
        ∀ i, (v.tables.itemsOf j.id)[1]? = some i →
          i.recipientId = ⟨6⟩ ∧ i.server = "south" ∧ i.variantId = some ⟨4⟩ := by
  have hs : InOrder ⟨crowded, [], []⟩ := inOrder_of_empty rfl rfl
  have hr : tryOut.CanBeMet twoServers crowded campaign :=
    ⟨rfl, by decide, by decide, by rintro limit ⟨⟩; decide, by decide⟩
  obtain ⟨⟨j, v, hrun⟩, hall⟩ :=
    (create_expands tryOut twoServers .roundRobin .engine hs).1 campaign hr
  obtain ⟨_, hj, hjob⟩ := hall _ v hrun
  obtain rfl := Except.ok.inj hj
  have hnames : j.serverNames = ["north", "south"] := hjob.servers.trans (by decide)
  refine ⟨hs, hr, j, v, hrun, hnames, hjob.length, fun i hi => ?_⟩
  obtain ⟨⟨row, hrow, hrecipient⟩, hserver, hvariant⟩ := hjob.item 1 i hi
  rw [hnames] at hserver
  refine ⟨?_, ?_, ?_⟩
  · obtain rfl := Option.some.inj hrow
    exact hrecipient
  · obtain ⟨k, hbucket, hk⟩ := hserver.weighted rfl (by decide)
    match k with
    | 0 => exact absurd hbucket.upper (by decide)
    | 1 => exact (Option.some.inj hk).symm
    | k + 2 => cases hk
  · obtain ⟨k, variant, hbucket, hk, hvariant⟩ := hvariant.some (by decide)
    match k with
    | 0 => exact hvariant.trans (congrArg _ (congrArg Variant.id (Option.some.inj hk).symm))
    | 1 => exact absurd hbucket.lower (by decide)
    | k + 2 => cases hk

end JobRequest

end Mailroom
