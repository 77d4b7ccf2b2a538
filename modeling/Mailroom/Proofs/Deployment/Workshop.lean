import Mailroom.Proofs.Concurrency.Cues
import Mailroom.Proofs.Deployment.Calls

/-!
Calls about domains side by side.  Each call is begun at some time, and any call that is under way may
make the next request.  Main statements: what the calls' own terms make sure of in every turn holds
all along, and a workshop that follows cues comes to nothing that it might not come to anyway.
-/

namespace Mailroom.DomainSync

open Relation (ReflTransGen)
open Program (Meets)

/-- A call that was begun, with what is left of it. -/
abbrev Work := (c : Call) × Program (Except DispatchError c.Reply)

/-- The site, and the calls that were begun. -/
structure Workshop where
  site : Site
  calls : List Work

namespace Workshop

/-- Nothing has been asked for yet. -/
def opening (t : Tables) : Workshop := ⟨⟨t, []⟩, []⟩

/-- A call may begin at any time, and one that is under way takes a turn. -/
inductive Step : Workshop → Workshop → Prop where
  | begins {w : Workshop} (c : Call) : Step w { w with calls := w.calls ++ [⟨c, c.program⟩] }
  | turn {w : Workshop} {site : Site} {place : Nat} {c : Call} {e : Effect} {answer : e.Answer}
      {p left : Program (Except DispatchError c.Reply)} (hcall : w.calls[place]? = some ⟨c, p⟩)
      (hturn : p.Turn e answer left) (hacts : Site.acts place e answer w.site site) :
      Step w ⟨site, w.calls.set place ⟨c, left⟩⟩

/-- What a workshop that began with some tables may come to. -/
def Reachable (t : Tables) : Workshop → Prop := ReflTransGen Step (opening t)

def IsOver (w : Workshop) : Prop := ∀ call ∈ w.calls, ∃ result, call.2.Ends result

end Workshop

/-- What goes on besides a call: others do their deeds. -/
def Others (place : Nat) (u v : Site) : Prop :=
  ∃ x : Deed, x.place ≠ place ∧ v.history = x :: u.history

namespace Workshop

variable {t : Tables} {w : Workshop} {inv : Site → Prop} {pledge : Nat → Site → Site → Prop}
  {post : Nat → Site → Prop}

/-- The calls are within their terms, and nobody else has done anything. -/
structure Orderly (inv : Site → Prop) (pledge : Nat → Site → Site → Prop) (post : Nat → Site → Prop)
    (w : Workshop) : Prop where
  holds : inv w.site
  known : ∀ x ∈ w.site.history, x.place < w.calls.length
  calls : ∀ (place : Nat) (call : Work), w.calls[place]? = some call →
    call.2.Meets (Site.acts place) (Others place) (pledge place) (fun _ => post place) w.site

/-- If every call that begins is within its terms, and what it pledges keeps an invariant, then this
is so all along. -/
theorem Reachable.orderly (hstart : inv ⟨t, []⟩)
    (hbegins : ∀ place (c : Call) u, (∀ x ∈ u.history, x.place ≠ place) →
      c.program.Meets (Site.acts place) (Others place) (pledge place) (fun _ => post place) u)
    (hinv : ∀ place u v, inv u → pledge place u v → inv v) (hw : Reachable t w) :
    Orderly inv pledge post w := by
  induction hw with
  | refl => exact ⟨hstart, by simp [opening], by simp [opening]⟩
  | @tail w _ _ hstep ih =>
      rcases ih with ⟨hholds, hknown, hcalls⟩
      cases hstep with
      | begins c =>
          refine ⟨hholds, fun x hx => ?_, fun place call hcall => ?_⟩
          · rw [List.length_append]
            exact Nat.lt_add_right _ (hknown x hx)
          · by_cases hplace : place < w.calls.length
            · rw [List.getElem?_append_left hplace] at hcall
              exact hcalls place call hcall
            · rw [List.getElem?_append_right (Nat.le_of_not_lt hplace)] at hcall
              obtain ⟨hlast, hnew⟩ := List.getElem?_eq_some_iff.1 hcall
              obtain rfl : ⟨c, c.program⟩ = call := by simpa using hnew
              exact hbegins place c w.site fun x hx hown => hplace (hown ▸ hknown x hx)
      | @turn site place c e answer p left hcall hturn hacts =>
          obtain ⟨hpledge, hleft⟩ := (hcalls place _ hcall).turn hturn hacts
          have hlength := (List.getElem?_eq_some_iff.1 hcall).1
          refine ⟨hinv place _ _ hholds hpledge, ?_, fun other call hother => ?_⟩
          · rw [hacts.2, List.length_set]
            exact List.forall_mem_cons.2 ⟨hlength, hknown⟩
          · by_cases hsame : place = other
            · subst hsame
              rw [List.getElem?_set_self hlength] at hother
              obtain rfl := Option.some.inj hother
              exact hleft
            · rw [List.getElem?_set_ne hsame] at hother
              exact (hcalls other call hother).of_rely ⟨_, hsame, hacts.2⟩

/-- When all calls are over, each of them has what it wanted. -/
theorem Orderly.post_of_isOver (h : Orderly inv pledge post w) (hover : w.IsOver) {place : Nat}
    (hplace : place < w.calls.length) : post place w.site := by
  have hcall : w.calls[place]? = some w.calls[place] := List.getElem?_eq_getElem hplace
  obtain ⟨result, hends⟩ := hover _ (List.getElem_mem hplace)
  exact (h.calls place _ hcall).result hends

end Workshop

/-- What is to happen next: a call begins, or the one in a place takes a turn. -/
inductive Cue where
  | begins (c : Call)
  | turn (place : Nat)
deriving DecidableEq

namespace Workshop

variable {t : Tables} {w : Workshop} {c : Circumstances}

/-- A workshop after a cue, which is passed over if nobody can follow it. -/
def follow (c : Circumstances) (w : Workshop) : Cue → Workshop
  | .begins call => { w with calls := w.calls ++ [⟨call, call.program⟩] }
  | .turn place =>
      match w.calls[place]? with
      | some ⟨call, p⟩ =>
          match p.turn? (Site.respond c place) w.site with
          | some (left, site) => ⟨site, w.calls.set place ⟨call, left⟩⟩
          | none => w
      | none => w

theorem Reachable.follow (hfailure : ∀ call, c.failure? call = none) (hw : Reachable t w)
    (cue : Cue) : Reachable t (w.follow c cue) := by
  cases cue with
  | begins call => exact hw.tail (.begins call)
  | turn place =>
      simp only [Workshop.follow]
      split
      · rename_i call p hcall
        split
        · rename_i left site hleft
          obtain ⟨effect, hturn, rfl⟩ := Program.exists_turn hleft
          exact hw.tail (.turn hcall hturn (Site.acts_respond hfailure place effect w.site))
        · exact hw
      · exact hw

/-- A workshop that opens with some tables, after some cues. -/
def played (c : Circumstances) (t : Tables) (cues : List Cue) : Workshop :=
  cues.foldl (follow c) (opening t)

theorem reachable_played (hfailure : ∀ call, c.failure? call = none) (cues : List Cue) :
    Reachable t (played c t cues) := by
  have hmany : ∀ w, Reachable t w → Reachable t (cues.foldl (Workshop.follow c) w) := by
    induction cues with
    | nil => exact fun w hw => hw
    | cons cue cues ih => exact fun w hw => ih _ (hw.follow hfailure cue)
  exact hmany _ .refl

end Workshop

end Mailroom.DomainSync
