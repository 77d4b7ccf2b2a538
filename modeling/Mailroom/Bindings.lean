/-!
Rows told apart by a key, and values bound to names as rows of that kind.  Main statements: after a
row is put, its key finds it, and every other key finds what it found before; likewise for a name
that is bound to a value.
-/

namespace Mailroom

variable {α κ : Type} [DecidableEq κ]

/-- Put a row, in place of an earlier one of its key. -/
def putBy (key : α → κ) (row : α) : List α → List α
  | [] => [row]
  | r :: rows => if key r = key row then row :: rows else r :: putBy key row rows

theorem find?_putBy (key : α → κ) (row : α) (rows : List α) (k : κ) :
    (putBy key row rows).find? (fun r => key r == k) =
      if key row = k then some row else rows.find? fun r => key r == k := by
  induction rows with
  | nil => by_cases h : key row = k <;> simp [putBy, h]
  | cons r rows ih =>
      by_cases hr : key r = key row
      · by_cases h : key row = k <;> simp [putBy, hr, h]
      · by_cases h : key r = k
        · have hrow : ¬ k = key row := fun e => hr (h.trans e)
          have hkey : ¬ key row = k := fun e => hrow e.symm
          simp [putBy, h, hrow, hkey]
        · simp [putBy, hr, h, ih]

/-- Values bound to names, in the order in which the names came up. -/
abbrev Bindings (α : Type) := List (String × α)

namespace Bindings

/-- Bind a name, in place of an earlier binding of it. -/
def put (name : String) (value : α) (b : Bindings α) : Bindings α := putBy Prod.fst (name, value) b

theorem lookup_eq (name : String) (b : Bindings α) :
    List.lookup name b = (b.find? fun entry => entry.1 == name).map Prod.snd := by
  induction b with
  | nil => rfl
  | cons entry rest ih =>
      obtain ⟨n, v⟩ := entry
      by_cases h : n = name
      · simp [h]
      · have hne : (name == n) = false := by simpa using fun e => h e.symm
        simp [List.lookup_cons, h, hne, ih]

theorem lookup_put (name other : String) (value : α) (b : Bindings α) :
    List.lookup other (put name value b) =
      if other = name then some value else List.lookup other b := by
  rw [lookup_eq, lookup_eq, put, find?_putBy]
  by_cases h : name = other
  · simp [h]
  · have hother : ¬ other = name := fun e => h e.symm
    simp [h, hother]

end Bindings

end Mailroom
