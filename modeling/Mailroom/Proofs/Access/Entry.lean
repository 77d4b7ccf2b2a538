import Mailroom.Access.Authenticate
import Mailroom.Proofs.Store.Instants

/-!
Who is let in.  Main statement: a secret lets its bearer in exactly if it opens one of the keys that
are looked at; these are all the keys of its lead whose time is not over, but no more than the
limit.
-/

namespace Mailroom.Access

open Program (Completes completes_pure completes_request)
open Service (completes_found_bind completes_of_bind completes_request_bind)

/-- A stored hash without a mark of its kind is the digest of its secret, and of no other text. -/
theorem eq_of_verifies {secret stored : String} (hmark : '$' ∉ stored.toList)
    (h : verifies secret stored = true) : Digest.sha256Hex secret = stored := by
  rw [verifies] at h
  split at h
  · rename_i hargon
    obtain ⟨rest, hrest⟩ := Option.isSome_iff_exists.1 hargon
    obtain ⟨cs, hcs, -⟩ := Option.map_eq_some_iff.1 hrest
    refine absurd ?_ hmark
    rw [Text.eq_append_of_afterLead? hcs]
    exact List.mem_append_left _ (by decide)
  · simpa using h

theorem verifies_sha256Hex (secret : String) : verifies secret (Digest.sha256Hex secret) = true := by
  rw [verifies]
  split
  · rename_i hargon
    obtain ⟨rest, hrest⟩ := Option.isSome_iff_exists.1 hargon
    obtain ⟨cs, hcs, -⟩ := Option.map_eq_some_iff.1 hrest
    have hmark : '$' ∈ (Digest.sha256Hex secret).toList := by
      rw [Text.eq_append_of_afterLead? hcs]
      exact List.mem_append_left _ (by decide)
    exact absurd (Text.isAlphanum_of_mem_hexOfBytes hmark) (by decide)
  · simp

section

variable {t : Tables} {lead secret : String} {now : Timestamp} {s s' : Moment}
  {result : Except Denial ApiKey} {k : ApiKey}

/-- A stored key that a secret opens at an instant: it has the secret's lead, its time is not over,
and its hash is one of the secret. -/
structure Opens (t : Tables) (lead secret : String) (now : Timestamp) (k : ApiKey) : Prop where
  stored : k ∈ t.keys
  lead_eq : k.lead = lead
  valid : k.isExpired now = false
  verified : verifies secret k.hash = true

/-- All keys of a lead whose time is not over at an instant. -/
def validKeys (t : Tables) (lead : String) (now : Timestamp) : List ApiKey :=
  t.keys.filter fun k => k.lead == lead && !k.isExpired now

theorem opens_iff :
    Opens t lead secret now k ↔ k ∈ validKeys t lead now ∧ verifies secret k.hash = true := by
  simp only [validKeys, List.mem_filter, Bool.and_eq_true, beq_iff_eq, Bool.not_eq_true']
  constructor
  · rintro ⟨hstored, hlead, hvalid, hverified⟩
    exact ⟨⟨hstored, hlead, hvalid⟩, hverified⟩
  · rintro ⟨⟨hstored, hlead, hvalid⟩, hverified⟩
    exact ⟨hstored, hlead, hvalid, hverified⟩

theorem opens_of_find?
    (h : (t.keysByLead lead now).find? (fun k => verifies secret k.hash) = some k) :
    Opens t lead secret now k := by
  have hvalid : k ∈ validKeys t lead now := List.mem_of_mem_take (List.mem_of_find?_eq_some h)
  exact opens_iff.2 ⟨hvalid, by simpa using List.find?_some h⟩

/-- What comes of a secret, at the instants of the look-up and of the look at the key's time. -/
def verdict (t : Tables) (lead secret : String) (looked checked : Timestamp) :
    Except Denial ApiKey :=
  match (t.keysByLead lead looked).find? fun k => verifies secret k.hash with
  | some k => if k.isExpired checked then .error .unknown else .ok k
  | none => .error .unknown

/-- A secret is presented at a moment, and at another one there is an answer. -/
abbrev ComesTo (secret : String) (s : Moment) (result : Except Denial ApiKey) (s' : Moment) : Prop :=
  (authenticate secret).run.Completes Moment.acts s result s'

/-- A key that was found is handed out if its time is not over. -/
theorem completes_admit
    (hrun : (do
      if k.isExpired (← Service.request .now) then throw .unknown
      Service.request (.storeLater (.touchKey k.id))
      return k : Service Denial ApiKey).run.Completes Moment.acts s result s') :
    ∃ checked, s.clock.le checked = true ∧ checked.le s'.clock = true ∧
      result = if k.isExpired checked then .error .unknown else .ok k := by
  obtain ⟨checked, v, ⟨hle, hanswer, -⟩, hrest⟩ := completes_request_bind.1 hrun
  dsimp only at hanswer hrest
  subst hanswer
  refine ⟨v.clock, hle, Moment.clock_le hrest, ?_⟩
  split at hrest
  · rename_i hexpired
    rw [if_pos hexpired]
    rcases completes_of_bind hrest with ⟨_, _, hthrow, -⟩ | ⟨error, hthrow, herror⟩
    · cases (completes_pure.1 hthrow).1
    · rw [herror, Except.error.inj (completes_pure.1 hthrow).1]
  · rename_i hvalid
    rw [if_neg hvalid]
    obtain ⟨_, _, -, hrest⟩ := completes_request_bind.1 hrest
    exact (completes_pure.1 hrest).1

/-- Who presents a secret gets the verdict on it, at two instants one after the other. -/
theorem verdict_of_comesTo (hlead : leadOf? secret = some lead) (hrun : ComesTo secret s result s') :
    ∃ looked checked, s.clock.le looked = true ∧ looked.le checked = true ∧
      checked.le s'.clock = true ∧ result = verdict s.tables lead secret looked checked := by
  unfold ComesTo authenticate at hrun
  rw [hlead] at hrun
  obtain ⟨reply, v, ⟨hlooked, hreply, -⟩, hrest⟩ := completes_request_bind.1 hrun
  subst hreply
  rcases completes_found_bind.1 hrest with ⟨k, hfound, hadmit⟩ | ⟨hnone, hresult, rfl⟩
  · obtain ⟨checked, hchecked, hle, hresult⟩ := completes_admit hadmit
    refine ⟨v.clock, checked, hlooked, hchecked, hle, ?_⟩
    change (s.tables.keysByLead lead v.clock).find? _ = some k at hfound
    rw [hresult, verdict, hfound]
  · refine ⟨s'.clock, s'.clock, hlooked, Timestamp.le_refl _, Timestamp.le_refl _, ?_⟩
    change (s.tables.keysByLead lead s'.clock).find? _ = none at hnone
    rw [hresult, verdict, hnone]

/-- Who presents a secret gets an answer: with the clock at rest, the verdict at this instant. -/
theorem exists_comesTo (hlead : leadOf? secret = some lead) (s : Moment) :
    ∃ s', s'.clock = s.clock ∧
      ComesTo secret s (verdict s.tables lead secret s.clock s.clock) s' := by
  have hrest : s.clock.le s.clock = true := Timestamp.le_refl _
  unfold ComesTo authenticate
  rw [hlead]
  cases hfound : (s.tables.keysByLead lead s.clock).find? fun k => verifies secret k.hash with
  | none =>
      refine ⟨s, rfl, completes_request_bind.2 ⟨_, s, ⟨hrest, rfl, rfl⟩, ?_⟩⟩
      refine completes_found_bind.2 (.inr ⟨hfound, ?_, rfl⟩)
      rw [verdict, hfound]
  | some k =>
      -- the time was looked at in the look-up already
      have hvalid : ¬ k.isExpired s.clock = true := by
        simp [(opens_of_find? hfound).valid]
      refine ⟨s, rfl, completes_request_bind.2 ⟨_, s, ⟨hrest, rfl, rfl⟩, ?_⟩⟩
      refine completes_found_bind.2 (.inl ⟨k, hfound, ?_⟩)
      refine completes_request_bind.2 ⟨_, s, ⟨hrest, rfl, rfl⟩, ?_⟩
      dsimp only
      rw [if_neg hvalid]
      refine completes_request_bind.2 ⟨(), s, ⟨hrest, .inr rfl⟩, completes_pure.2 ⟨?_, rfl⟩⟩
      rw [verdict, hfound]
      exact if_neg hvalid

/-- From one moment to another, no key of a lead comes to the end of its time. -/
def IsSteady (lead : String) (s s' : Moment) : Prop :=
  ∀ k ∈ s.tables.keys, k.lead = lead → k.isExpired s'.clock = k.isExpired s.clock

theorem IsSteady.isExpired (hsteady : IsSteady lead s s') (hk : k ∈ s.tables.keys)
    (hlead : k.lead = lead) (hfrom : s.clock.le now = true) (hto : now.le s'.clock = true) :
    k.isExpired now = k.isExpired s.clock := by
  cases hnow : k.isExpired now with
  | true => rw [← hsteady k hk hlead, ApiKey.isExpired_of_le hto hnow]
  | false =>
      cases hbegin : k.isExpired s.clock with
      | true => rw [ApiKey.isExpired_of_le hfrom hbegin] at hnow; cases hnow
      | false => rfl

theorem IsSteady.keysByLead (hsteady : IsSteady lead s s') (hfrom : s.clock.le now = true)
    (hto : now.le s'.clock = true) :
    s.tables.keysByLead lead now = s.tables.keysByLead lead s.clock := by
  unfold Tables.keysByLead
  congr 1
  apply List.filter_congr
  intro k hk
  by_cases hlead : k.lead = lead
  · rw [hsteady.isExpired hk hlead hfrom hto]
  · rw [beq_eq_false_iff_ne.2 hlead, Bool.false_and, Bool.false_and]

/-- While no key of the lead runs out, the answer is the first key looked at that the secret opens. -/
theorem ok_iff_of_comesTo (hlead : leadOf? secret = some lead) (hrun : ComesTo secret s result s')
    (hsteady : IsSteady lead s s') :
    result = .ok k ↔
      (s.tables.keysByLead lead s.clock).find? (fun k => verifies secret k.hash) = some k := by
  obtain ⟨looked, checked, hlooked, hchecked, hend, rfl⟩ := verdict_of_comesTo hlead hrun
  have hkeys := hsteady.keysByLead hlooked (Timestamp.le_trans hchecked hend)
  rw [verdict, hkeys]
  split
  · rename_i k' hfound
    have hopens := opens_of_find? hfound
    have hvalid : k'.isExpired checked = false := by
      rw [hsteady.isExpired hopens.stored hopens.lead_eq (Timestamp.le_trans hlooked hchecked) hend]
      exact hopens.valid
    simp [hvalid, hfound]
  · rename_i hnone
    simp [hnone]

/-- Who presents a secret gets an answer.  If no key of its lead runs out meanwhile, every key that is
handed out is one that the secret opens; one is handed out exactly if the secret belongs to one of
the first valid keys of its lead, up to the limit; and so exactly if it opens any key at all, where
the lead has no more valid keys than that. -/
theorem authenticate_ok_iff (hlead : leadOf? secret = some lead) (s : Moment) :
    (∃ result s', ComesTo secret s result s') ∧
      ∀ result s', ComesTo secret s result s' → IsSteady lead s s' →
        (∀ k, result = .ok k → Opens s.tables lead secret s.clock k) ∧
        ((∃ k, result = .ok k) ↔
          ∃ k ∈ (validKeys s.tables lead s.clock).take Tables.keyLimit,
            verifies secret k.hash = true) ∧
        ((validKeys s.tables lead s.clock).length ≤ Tables.keyLimit →
          ((∃ k, result = .ok k) ↔ ∃ k, Opens s.tables lead secret s.clock k)) := by
  refine ⟨?_, ?_⟩
  · obtain ⟨s', -, hrun⟩ := exists_comesTo hlead s
    exact ⟨_, s', hrun⟩
  · intro result s' hrun hsteady
    have hok : ∀ k, result = .ok k ↔
        (s.tables.keysByLead lead s.clock).find? (fun k => verifies secret k.hash) = some k :=
      fun k => ok_iff_of_comesTo hlead hrun hsteady
    have hexact : (∃ k, result = .ok k) ↔
        ∃ k ∈ (validKeys s.tables lead s.clock).take Tables.keyLimit,
          verifies secret k.hash = true := by
      simp only [hok]
      rw [← Option.isSome_iff_exists, List.find?_isSome]
      rfl
    refine ⟨fun k hk => opens_of_find? ((hok k).1 hk), hexact, fun hfew => ?_⟩
    rw [hexact, List.take_of_length_le hfew]
    exact exists_congr fun k => opens_iff.symm

end

namespace Trial

def lead : String := "rm_live_"

def secret : String := "rm_live_winter"

/-- A key without an end, with some hash. -/
def key (n : Nat) (hash : String) : ApiKey :=
  ⟨⟨n⟩, "key", hash, lead, .arr [], .arr [], 0, 0, none, none, ⟨0, 0⟩⟩

/-- Some keys of the lead that belong to nobody, and behind them the key of the secret. -/
def tables (others : Nat) : Tables :=
  { keys := (List.range others).map (key · "-") ++ [key others (Digest.sha256Hex secret)] }

def moment (others : Nat) : Moment := ⟨tables others, ⟨0, 0⟩⟩

theorem leadOf_secret : leadOf? secret = some lead := by
  decide +kernel

theorem not_verifies_dash : verifies secret "-" = false := by
  rw [Bool.eq_false_iff]
  intro h
  have hlength := congrArg String.length (eq_of_verifies (by decide) h)
  rw [Digest.sha256Hex, Text.length_hexOfBytes, show "-".length = 1 from rfl] at hlength
  omega

theorem opens_key (others : Nat) :
    Opens (tables others) lead secret ⟨0, 0⟩ (key others (Digest.sha256Hex secret)) :=
  ⟨List.mem_append_right _ (List.mem_singleton.2 rfl), rfl, rfl, verifies_sha256Hex secret⟩

end Trial

open Trial in
/-- Beside one other key of the lead, the key of the secret lets its bearer in. -/
theorem admitted_beside_another :
    leadOf? secret = some lead ∧
      ∃ result s', ComesTo secret (moment 1) result s' ∧ IsSteady lead (moment 1) s' ∧
        (validKeys (tables 1) lead ⟨0, 0⟩).length ≤ Tables.keyLimit ∧
          ∃ k, result = .ok k ∧ k.hash ≠ "-" := by
  have hfew : (validKeys (tables 1) lead ⟨0, 0⟩).length ≤ Tables.keyLimit := by
    simp [validKeys, tables, key, ApiKey.isExpired, Tables.keyLimit]
  obtain ⟨s', hclock, hrun⟩ := exists_comesTo leadOf_secret (moment 1)
  have hsteady : IsSteady lead (moment 1) s' := fun k _ _ => by rw [hclock]
  obtain ⟨hsound, -, hwithin⟩ :=
    (authenticate_ok_iff leadOf_secret (moment 1)).2 _ s' hrun hsteady
  obtain ⟨k, hk⟩ := (hwithin hfew).2 ⟨_, opens_key 1⟩
  refine ⟨leadOf_secret, _, s', hrun, hsteady, hfew, k, hk, fun hdash => ?_⟩
  have hverified := (hsound k hk).verified
  rw [hdash, not_verifies_dash] at hverified
  cases hverified

open Trial in
/-- It is not so that a secret which opens a key always lets its bearer in. -/
theorem may_refuse_beyond_limit :
    ¬ ∀ (secret lead : String) (s s' : Moment) (result : Except Denial ApiKey),
      leadOf? secret = some lead → ComesTo secret s result s' → IsSteady lead s s' →
        ((∃ k, result = .ok k) ↔ ∃ k, Opens s.tables lead secret s.clock k) := by
  intro hclaim
  obtain ⟨s', hclock, hrun⟩ := exists_comesTo leadOf_secret (moment Tables.keyLimit)
  have hsteady : IsSteady lead (moment Tables.keyLimit) s' := fun k _ _ => by rw [hclock]
  obtain ⟨k, hk⟩ := (hclaim _ _ _ s' _ leadOf_secret hrun hsteady).2 ⟨_, opens_key Tables.keyLimit⟩
  -- the keys that are looked at are those of the others
  have hfound := (ok_iff_of_comesTo leadOf_secret hrun hsteady).1 hk
  have hlooked : (tables Tables.keyLimit).keysByLead lead ⟨0, 0⟩ =
      (List.range Tables.keyLimit).map (key · "-") := by
    rfl
  have hdash : k.hash = "-" := by
    obtain ⟨n, -, rfl⟩ := List.mem_map.1 (hlooked ▸ List.mem_of_find?_eq_some hfound)
    rfl
  have hverified := (opens_of_find? hfound).verified
  rw [hdash, not_verifies_dash] at hverified
  cases hverified

end Mailroom.Access
