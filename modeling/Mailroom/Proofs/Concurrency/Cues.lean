import Mailroom.Proofs.Concurrency.Alone

/-!
Offices that follow cues.  A cue says who takes the next turn, so that a list of cues is one way in
which ticks and calls may take turns, and it can be run.  Main statement: whatever the cues, an
office that follows them comes to nothing that it might not come to anyway.
-/

namespace Mailroom

namespace Program

variable {W α β : Type}

def result? : {α : Type} → Program α → Option α
  | _, done a => some a
  | _, ask _ _ => none
  | _, fork _ _ tasks next =>
      if h : ∀ i, (result? (tasks i)).isSome then
        result? (next fun i => (result? (tasks i)).get (h i))
      else none

theorem ends_of_result? {p : Program α} {a : α} (h : p.result? = some a) : p.Ends a := by
  induction p with
  | done b =>
      obtain rfl : b = a := Option.some.inj h
      exact .done b
  | ask e next _ => cases h
  | fork admission count tasks next ihtasks ihnext =>
      rw [result?] at h
      split at h
      · rename_i hall
        exact .join (fun i => ihtasks i (Option.some_get (hall i)).symm) (ihnext _ h)
      · cases h

/-- One turn of a program, given how requests are answered; of the tasks of a fork the first one
that has not ended takes it. -/
def turn? (respond : (e : Effect) → W → e.Answer × W) :
    {α : Type} → Program α → W → Option (Program α × W)
  | _, done _, _ => none
  | _, ask e next, w =>
      let answered := respond e w
      some (next answered.1, answered.2)
  | _, fork admission count tasks next, w =>
      let turns := (List.finRange count).findSome? fun i =>
        (turn? respond (tasks i) w).map fun left =>
          (fork admission count (Function.update tasks i left.1) next, left.2)
      turns.or
        (if h : ∀ i, (result? (tasks i)).isSome then
          turn? respond (next fun i => (result? (tasks i)).get (h i)) w
        else none)

theorem exists_turn {respond : (e : Effect) → W → e.Answer × W} {p q : Program α} {w v : W}
    (h : p.turn? respond w = some (q, v)) :
    ∃ e, p.Turn e (respond e w).1 q ∧ v = (respond e w).2 := by
  induction p generalizing w with
  | done a => cases h
  | ask e next _ =>
      obtain ⟨rfl, rfl⟩ := Prod.mk.inj (Option.some.inj h)
      exact ⟨e, .ask _, rfl⟩
  | fork admission count tasks next ihtasks ihnext =>
      rw [turn?, Option.or_eq_some_iff] at h
      rcases h with h | ⟨-, h⟩
      · obtain ⟨i, -, hi⟩ := List.exists_of_findSome?_eq_some h
        obtain ⟨⟨left, u⟩, hleft, hq⟩ := Option.map_eq_some_iff.1 hi
        obtain ⟨rfl, rfl⟩ := Prod.mk.inj hq
        obtain ⟨e, hturn, hv⟩ := ihtasks i hleft
        exact ⟨e, .task i hturn, hv⟩
      · split at h
        · rename_i hall
          obtain ⟨e, hturn, hv⟩ := ihnext _ h
          exact ⟨e, .join (fun i => ends_of_result? (Option.some_get (hall i)).symm) hturn, hv⟩
        · cases h

end Program

/-- What is to happen next in an office: a tick or a call begins, or takes a turn. -/
inductive Cue where
  | beginTick
  | beginCall (call : OperatorCall)
  | tick
  | call (place : Nat)
deriving DecidableEq

namespace Office

/-- An office after a cue, which is passed over if nobody can follow it. -/
def follow (e : Engine) (c : Circumstances) (o : Office) : Cue → Office
  | .beginTick => if o.tick.result?.isSome then { o with tick := e.tick } else o
  | .beginCall call => { o with calls := o.calls ++ [(call, call.program)] }
  | .tick =>
      match o.tick.turn? (c.respond .engine) o.scene with
      | some (left, scene) => { o with scene, tick := left }
      | none => o
  | .call place =>
      match o.calls[place]? with
      | some (call, p) =>
          match p.turn? (c.respond (.operator place call)) o.scene with
          | some (left, scene) => { o with scene, calls := o.calls.set place (call, left) }
          | none => o
      | none => o

variable {e : Engine} {around : Surroundings} {t : Tables} {c : Circumstances} {o : Office}

theorem Reachable.follow (haround : ∀ s e, around e (c.reaction s e).1)
    (ho : Reachable e around t o) (cue : Cue) : Reachable e around t (o.follow e c cue) := by
  cases cue with
  | beginTick =>
      rw [Office.follow]
      split
      · rename_i hended
        obtain ⟨report, hreport⟩ := Option.isSome_iff_exists.1 hended
        exact ho.step (.beginTick ⟨report, Program.ends_of_result? hreport⟩)
      · exact ho
  | beginCall call => exact ho.step (.beginCall call)
  | tick =>
      simp only [Office.follow]
      split
      · rename_i left scene hleft
        obtain ⟨effect, hturn, rfl⟩ := Program.exists_turn hleft
        exact ho.step (.tick hturn (Circumstances.acts_respond haround effect o.scene))
      · exact ho
  | call place =>
      simp only [Office.follow]
      split
      · rename_i call p hcall
        split
        · rename_i left scene hleft
          obtain ⟨effect, hturn, rfl⟩ := Program.exists_turn hleft
          exact ho.step (.call hcall hturn (Circumstances.acts_respond haround effect o.scene))
        · exact ho
      · exact ho

/-- An office that opens with some tables, after some cues. -/
def played (e : Engine) (c : Circumstances) (t : Tables) (cues : List Cue) : Office :=
  cues.foldl (follow e c) (opening t)

theorem reachable_played (haround : ∀ s e, around e (c.reaction s e).1) (cues : List Cue) :
    Reachable e around t (played e c t cues) := by
  have hmany : ∀ o, Reachable e around t o →
      Reachable e around t (cues.foldl (Office.follow e c) o) := by
    induction cues with
    | nil => exact fun o ho => ho
    | cons cue cues ih => exact fun o ho => ih _ (ho.follow haround cue)
  exact hmany _ .refl

end Office

end Mailroom
