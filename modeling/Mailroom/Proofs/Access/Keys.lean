import Mailroom.Proofs.Delivery.Direct

/-!
What the stored lists of a key say.  A list counts only if all its entries are texts; any other value
stands for no entries at all.  For scopes this shuts a key out, for domains it lets it send from any.
Main statement: a direct send with a key records or mails something only if the sender has an address
whose domain the key's list names, where it is a list of texts with an entry.
-/

namespace Mailroom

open Program (Asks)

namespace ApiKey

variable {k : ApiKey}

theorem mapM_str?_map (names : List String) :
    (names.map Json.str).mapM Json.str? = some names := by
  induction names with
  | nil => rfl
  | cons name names ih => simp [List.mapM_cons, Json.str?, ih]

theorem eq_map_of_mapM_str? {items : List Json} {names : List String}
    (h : items.mapM Json.str? = some names) : items = names.map Json.str := by
  induction items generalizing names with
  | nil =>
      obtain rfl : names = [] := by simpa using h.symm
      rfl
  | cons item items ih =>
      rw [List.mapM_cons] at h
      obtain ⟨name, hname, h⟩ := Option.bind_eq_some_iff.1 h
      obtain ⟨rest, hrest, h⟩ := Option.bind_eq_some_iff.1 h
      obtain rfl : name :: rest = names := Option.some.inj h
      have hitem : item = .str name := by
        cases item with
        | str s => exact congrArg Json.str (Option.some.inj hname)
        | _ => cases hname
      rw [hitem, ih hrest, List.map_cons]

@[simp] theorem textsOf_ofStrings (names : List String) : textsOf (.ofStrings names) = names := by
  rw [Json.ofStrings, textsOf, mapM_str?_map, Option.getD_some]

/-- Only a list of texts has texts. -/
theorem eq_ofStrings_of_textsOf_ne_nil {value : Json} (h : textsOf value ≠ []) :
    value = .ofStrings (textsOf value) := by
  cases value with
  | arr items =>
      cases hitems : items.mapM Json.str? with
      | none => simp [textsOf, hitems] at h
      | some names =>
          rw [textsOf, hitems, Option.getD_some, Json.ofStrings, eq_map_of_mapM_str? hitems]
  | _ => exact absurd rfl h

/-- A key has a scope exactly if its stored scopes are a list of texts that holds the scope or the
star. -/
theorem hasScope_iff {scope : String} : k.hasScope scope = true ↔
    ∃ names, k.scopes = .ofStrings names ∧ ("*" ∈ names ∨ scope ∈ names) := by
  simp only [hasScope, scopeNames, List.any_eq_true, Bool.or_eq_true, beq_iff_eq]
  constructor
  · rintro ⟨name, hname, heq⟩
    refine ⟨_, eq_ofStrings_of_textsOf_ne_nil (List.ne_nil_of_mem hname), ?_⟩
    rcases heq with rfl | rfl
    · exact .inl hname
    · exact .inr hname
  · rintro ⟨names, hscopes, hstar | hscope⟩
    · exact ⟨"*", by simpa [hscopes] using hstar, .inl rfl⟩
    · exact ⟨scope, by simpa [hscopes] using hscope, .inr rfl⟩

/-- If the stored domains of a key are a list of texts, and not the empty one, then a domain is among
them, in whatever letter case. -/
def Covers (k : ApiKey) (domain : String) : Prop :=
  ∀ names, k.domains = .ofStrings names → names ≠ [] →
    ∃ name ∈ names, Text.lowered name = Text.lowered domain

theorem allowsDomain_iff {domain : String} : k.allowsDomain domain = true ↔ k.Covers domain := by
  simp only [allowsDomain, domainNames, Bool.or_eq_true, List.isEmpty_iff, List.any_eq_true,
    beq_iff_eq]
  constructor
  · rintro hallowed names hnames hne
    rw [hnames, textsOf_ofStrings] at hallowed
    exact hallowed.resolve_left hne
  · intro hcovers
    by_cases hnone : textsOf k.domains = []
    · exact .inl hnone
    · exact .inr (hcovers _ (eq_ofStrings_of_textsOf_ne_nil hnone) hnone)

end ApiKey

/-- A request that records a direct send or calls a server. -/
def Effect.Dispatches : Effect → Prop
  | .store (.createSend _) => True
  | .mta _ _ => True
  | _ => False

namespace SendRequest

variable {r : SendRequest} {router : Router} {k : ApiKey}

theorem checkKey_eq_ok_iff {domain : String} :
    checkKey domain (some k) = .ok () ↔ k.Covers domain := by
  rw [checkKey, ← ApiKey.allowsDomain_iff]
  split
  next hallowed => simp [hallowed]
  next hforbidden => simp [hforbidden]

/-- A request that fails its checks asks for nothing. -/
theorem asks_sendNow_of_unchecked {kind : Effect → Prop} {key : Option ApiKey} {e : DispatchError}
    (h : r.checked key = .error e) : Asks kind (r.sendNow router key).run := by
  rw [sendNow, h]
  trivial

/-- Whatever it is answered on the way, a direct send with a key comes to record the send or to call
a server only if the sender has an address whose domain the key covers; and a key passes the check of
a domain exactly if it covers it. -/
theorem dispatches_only_if_covered (r : SendRequest) (router : Router) (k : ApiKey) :
    Asks (fun e => e.Dispatches → ∃ a, Address.parse? r.sender = some a ∧ k.Covers a.domain)
        (r.sendNow router (some k)).run ∧
      ∀ domain, checkKey domain (some k) = .ok () ↔ k.Covers domain := by
  refine ⟨?_, fun _ => checkKey_eq_ok_iff⟩
  cases hchecked : r.checked (some k) with
  | error e => exact asks_sendNow_of_unchecked hchecked
  | ok rendered =>
      obtain ⟨source, ctx⟩ := rendered
      obtain ⟨domain, hdomain, hallowed⟩ := allowed_of_checked hchecked
      obtain ⟨a, hparse, rfl⟩ := Option.map_eq_some_iff.1 hdomain
      have hcovers := ApiKey.allowsDomain_iff.1 (hallowed k rfl)
      exact Program.asks_of_forall (fun _ _ => ⟨a, hparse, hcovers⟩) _

end SendRequest

namespace Rehearsal

/-- A key whose stored domains are one text in place of a list. -/
def restricted : ApiKey :=
  ⟨⟨6⟩, "shop", "", "rm_shop_", .ofStrings ["send"], .str "other.example", 0, 0, none, none, ⟨0, 0⟩⟩

/-- What the letter comes to with that key. -/
def strayed : Except DispatchError SendReceipt × Scene :=
  (letter.sendNow ⟨engine.registry, {}⟩ (some restricted)).run.alone
    ((fair "waiting").respond .engine) ⟨deployed, [], []⟩

end Rehearsal

namespace SendRequest

/-- Domains that are stored as a text, not as a list, restrict nothing: the send is recorded and the
server takes the message, though no text of a list is the sender's domain. -/
theorem may_send_from_foreign_domain :
    Rehearsal.restricted.domains ≠ .arr [] ∧
      (∃ result s', Rehearsal.letter.ComesTo ⟨Rehearsal.engine.registry, {}⟩
          (some Rehearsal.restricted) .engine ⟨Rehearsal.deployed, [], []⟩ result s' ∧
        s'.tables.sends.length = 1 ∧ (s'.history.filterMap Event.took?).length = 1) ∧
      ¬ ∃ items name a, Rehearsal.restricted.domains = .arr items ∧ .str name ∈ items ∧
        Address.parse? Rehearsal.letter.sender = some a ∧
        Text.lowered name = Text.lowered a.domain := by
  have hrun : Rehearsal.letter.ComesTo ⟨Rehearsal.engine.registry, {}⟩
      (some Rehearsal.restricted) .engine ⟨Rehearsal.deployed, [], []⟩ Rehearsal.strayed.1
      Rehearsal.strayed.2 := Circumstances.completes (fun _ _ => trivial) .engine _ _
  refine ⟨nofun, ⟨_, _, hrun, by decide +kernel, by decide +kernel⟩, ?_⟩
  rintro ⟨items, name, a, hitems, -⟩
  cases hitems

end SendRequest

end Mailroom
