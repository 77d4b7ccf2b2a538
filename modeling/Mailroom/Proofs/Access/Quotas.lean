import Mailroom.Proofs.Access.Scopes
import Mailroom.Proofs.Limits.Remaining

/-!
Direct sends and the limits of their keys.  Main statement: what a key has left tells whether its next
request is let in, and a request that is turned away is told that nothing is left in a window.
-/

namespace Mailroom

open Program (completes_pure)
open Service (completes_adapt completes_of_bind completes_request_bind)

/-- Only a limit that is reached is told by this status. -/
theorem ApiError.status_eq_429_iff {e : ApiError} :
    e.answer.status = 429 ↔ ∃ left, e = .rateLimited left := by
  constructor
  · intro hstatus
    cases e with
    | rateLimited left => exact ⟨left, rfl⟩
    | unreadable reason => cases reason <;> cases hstatus
    | dispatch error =>
        cases error with
        | storage failure => cases failure <;> cases hstatus
        | _ => cases hstatus
    | job error =>
        cases error with
        | storage failure => cases failure <;> cases hstatus
        | _ => cases hstatus
    | _ => cases hstatus
  · rintro ⟨left, rfl⟩
    rfl

namespace Interface

variable {actor : Actor} {i : Interface} {key : ApiKey} {request : SendRequest} {clock : Nat}
  {u v : Premises} {result : Except ApiError ApiAnswer}

/-- What a key has left at an instant. -/
def quota (key : ApiKey) (l : Limiter) (clock : Nat) : Remaining :=
  l.remaining key.id.display (limitOf key.perMinute) (limitOf key.perHour) clock

/-- A key without the scope is not looked for in the limiter. -/
theorem completes_sendMessage_of_unscoped (hscope : key.hasScope scopeSend = false)
    (hrun : (i.sendMessage key request).run.Completes (Premises.actsAt .harsh clock actor) u result v) :
    result = .error (.scopeMissing scopeSend) := by
  rw [sendMessage, checkScope_of_not_hasScope hscope] at hrun
  exact (completes_pure.1 hrun).1

/-- A key that has something left in all its windows is not turned away for its limits. -/
theorem completes_sendMessage_of_room (hscope : key.hasScope scopeSend = true)
    (hroom : ¬ (quota key u.limiter clock).IsSpent)
    (hrun : (i.sendMessage key request).run.Completes (Premises.actsAt .harsh clock actor) u result v) :
    (answerTo result).status ≠ 429 := by
  rw [sendMessage, checkScope_of_hasScope hscope, pure_bind] at hrun
  obtain ⟨admitted, w, hallow, hrun⟩ := completes_request_bind.1 hrun
  obtain rfl : admitted = true := (Prod.mk.inj hallow.2).1.trans (Limiter.allow_eq_true_iff.2 hroom)
  rw [if_pos rfl] at hrun
  rcases completes_of_bind hrun with ⟨receipt, x, -, hrun⟩ | ⟨error, hsend, rfl⟩
  · obtain ⟨rfl, -⟩ := completes_pure.1 hrun
    exact (by decide : 200 ≠ 429)
  · obtain ⟨inner, -, hinner⟩ := completes_adapt.1 hsend
    intro hstatus
    obtain ⟨left, rfl⟩ := ApiError.status_eq_429_iff.1 hstatus
    cases inner <;> cases hinner

/-- A key that has nothing left in a window is turned away, and told so. -/
theorem completes_sendMessage_of_spent (hscope : key.hasScope scopeSend = true)
    (hspent : (quota key u.limiter clock).IsSpent)
    (hrun : (i.sendMessage key request).run.Completes (Premises.actsAt .harsh clock actor) u result v) :
    result = .error (.rateLimited (quota key u.limiter clock)) := by
  have hrefused : (u.limiter.allow key.id.display (limitOf key.perMinute) (limitOf key.perHour)
      clock).1 = false :=
    eq_false_of_ne_true fun hallowed => Limiter.allow_eq_true_iff.1 hallowed hspent
  rw [sendMessage, checkScope_of_hasScope hscope, pure_bind] at hrun
  obtain ⟨admitted, w, hallow, hrun⟩ := completes_request_bind.1 hrun
  have hw := Prod.mk.inj hallow.2
  obtain rfl : admitted = false := hw.1.trans hrefused
  rw [if_neg Bool.false_ne_true] at hrun
  obtain ⟨left, x, hleft, hrun⟩ := completes_request_bind.1 hrun
  obtain ⟨rfl, -⟩ := completes_pure.1 hrun
  have hlimiter : w.limiter = (u.limiter.allow key.id.display (limitOf key.perMinute)
      (limitOf key.perHour) clock).2 := (Prod.mk.inj hw.2).1
  have htold : left = quota key w.limiter clock := (Prod.mk.inj hleft.2).1
  rw [htold, quota, hlimiter, Limiter.remaining_of_refused hrefused (Nat.le_refl clock), quota]

/-- What is left and what is let in agree.  Whatever a limiter holds, a request is let in exactly if
nothing that is left at that instant is zero.  One that is let in lowers by one what is left in each
window with a limit; one that is kept out lowers nothing, then or later; and neither touches what
other keys have left.  So a direct send is turned away for the limits of its key exactly if something
that the key has left is zero, and this is what it is told. -/
theorem allow_agrees_with_remaining (l : Limiter) (name : String) (perMinute perHour now : Nat) :
    ((l.allow name perMinute perHour now).1 = true ↔
      (l.remaining name perMinute perHour now).perMinute ≠ some 0 ∧
        (l.remaining name perMinute perHour now).perHour ≠ some 0) ∧
    ((l.allow name perMinute perHour now).1 = true →
      l.remaining name perMinute perHour now =
        ((l.allow name perMinute perHour now).2.remaining name perMinute perHour now).raised) ∧
    ((l.allow name perMinute perHour now).1 = false →
      ∀ later, now ≤ later → ∀ minute hour,
        (l.allow name perMinute perHour now).2.remaining name minute hour later =
          l.remaining name minute hour later) ∧
    (∀ other, other ≠ name → ∀ minute hour later,
      (l.allow name perMinute perHour now).2.remaining other minute hour later =
        l.remaining other minute hour later) ∧
    ∀ (i : Interface) (key : ApiKey) (request : SendRequest) (clock : Nat) (actor : Actor)
        (u v : Premises) (result : Except ApiError ApiAnswer),
      (i.sendMessage key request).run.Completes (Premises.actsAt .harsh clock actor) u result v →
        ((answerTo result).status = 429 ↔
          key.hasScope scopeSend = true ∧ (quota key u.limiter clock).IsSpent) ∧
        ((answerTo result).status = 429 →
          answerTo result = (ApiError.rateLimited (quota key u.limiter clock)).answer) := by
  refine ⟨?_, Limiter.remaining_of_allowed, fun hrefused later hlater =>
    Limiter.remaining_of_refused hrefused hlater, fun other hother minute hour later =>
    Limiter.remaining_allow_of_ne hother minute hour, ?_⟩
  · rw [Limiter.allow_eq_true_iff, Remaining.IsSpent, not_or]
  · intro i key request clock actor u v result hrun
    cases hscope : key.hasScope scopeSend with
    | false =>
        have hstatus : (answerTo result).status ≠ 429 := by
          rw [completes_sendMessage_of_unscoped hscope hrun]
          exact (by decide : 403 ≠ 429)
        exact ⟨⟨fun h => absurd h hstatus, fun h => absurd h.1 Bool.false_ne_true⟩,
          fun h => absurd h hstatus⟩
    | true =>
        by_cases hspent : (quota key u.limiter clock).IsSpent
        · rw [completes_sendMessage_of_spent hscope hspent hrun]
          exact ⟨⟨fun _ => ⟨rfl, hspent⟩, fun _ => rfl⟩, fun _ => rfl⟩
        · have hstatus := completes_sendMessage_of_room hscope hspent hrun
          exact ⟨⟨fun h => absurd h hstatus, fun h => absurd h.2 hspent⟩,
            fun h => absurd h hstatus⟩

end Interface

namespace Rehearsal

/-- A key that may send once a minute. -/
def metered : ApiKey := { restricted with perMinute := 1 }

/-- The key has just sent. -/
def spent : Premises where
  scene := ⟨deployed, [], []⟩
  limiter := .ofRun [(0, .allow metered.id.display 1 0)]
  selection := .initial

end Rehearsal

namespace Interface

open Rehearsal (fair interface letter metered spent)

/-- Within the minute the key is turned away and told that nothing is left, and then no more. -/
theorem turned_away_within_minute :
    (quota metered spent.limiter 59999).IsSpent ∧ ¬ (quota metered spent.limiter 60000).IsSpent ∧
      ∃ result v, (interface.sendMessage metered letter).run.Completes
          (Premises.actsAt .harsh 59999 .engine) spent result v ∧
        answerTo result = (ApiError.rateLimited ⟨some 0, none⟩).answer := by
  have hspent : (quota metered spent.limiter 59999).IsSpent := by decide +kernel
  have hquota : quota metered spent.limiter 59999 = ⟨some 0, none⟩ := by decide +kernel
  have hrun := (interface.sendMessage metered letter).run.completes_alone
    (Premises.actsAt_respond (c := fair "waiting") (fun _ _ _ => trivial) (fun _ _ => trivial)
      .engine 59999) spent
  obtain ⟨-, -, -, -, hsend⟩ := allow_agrees_with_remaining spent.limiter metered.id.display 1 0 0
  obtain ⟨hiff, hanswer⟩ := hsend _ _ _ _ _ _ _ _ hrun
  refine ⟨hspent, by decide +kernel, _, _, hrun, ?_⟩
  rw [hanswer (hiff.2 ⟨by decide +kernel, hspent⟩), hquota]

end Interface

end Mailroom
