import Mailroom.Text.Blank
import Mailroom.Text.Dictionary

/-!
Placeholders in templates.  A placeholder is two opening braces, a body without braces, and two
closing braces; its trimmed body is the key of the value that replaces it.  All placeholders are
replaced at once: what a value brings in is not looked at again.
-/

namespace Mailroom.Content

def opening : Char := '\x7b'

def closing : Char := '\x7d'

/-- The body of a placeholder whose opening braces have been passed, and the text after it. -/
def body? : List Char → Option (List Char × List Char)
  | [] => none
  | c :: cs =>
      if c = opening then none
      else if c = closing then
        match cs with
        | d :: rest => if d = closing then some ([], rest) else none
        | [] => none
      else (body? cs).map fun (body, rest) => (c :: body, rest)

/-- The placeholder that a text starts with: its body and the text after it. -/
def placeholder? : List Char → Option (List Char × List Char)
  | a :: b :: rest => if a = opening ∧ b = opening then body? rest else none
  | _ => none

def key (body : List Char) : String := String.ofList (Text.trim body)

def written (body : List Char) : List Char :=
  opening :: opening :: (body ++ [closing, closing])

theorem body?_length {cs body rest : List Char} (h : body? cs = some (body, rest)) :
    rest.length < cs.length := by
  induction cs generalizing body rest with
  | nil => simp [body?] at h
  | cons c cs ih =>
      by_cases hopen : c = opening
      · simp [body?, hopen] at h
      · by_cases hclose : c = closing
        · cases cs with
          | nil => simp [body?, hclose] at h
          | cons d tail =>
              simp only [body?, hclose, if_true] at h
              split at h
              · simp at h
              · split at h
                · simp only [Option.some.injEq, Prod.mk.injEq] at h
                  rcases h with ⟨_, rfl⟩
                  simp only [List.length_cons]
                  omega
                · simp at h
        · simp only [body?, hopen, hclose, if_false, Option.map_eq_some_iff] at h
          rcases h with ⟨⟨b, r⟩, hbr, heq⟩
          simp only [Prod.mk.injEq] at heq
          rcases heq with ⟨_, rfl⟩
          have := ih hbr
          simp only [List.length_cons]
          omega

theorem placeholder?_length {cs body rest : List Char} (h : placeholder? cs = some (body, rest)) :
    rest.length < cs.length := by
  unfold placeholder? at h
  split at h
  · split at h
    · have := body?_length h
      simp only [List.length_cons]
      omega
    · simp at h
  · simp at h

/-- The text with every placeholder of a known key replaced by its value. -/
def renderChars (vars : Dictionary) (cs : List Char) : List Char :=
  match _h : placeholder? cs with
  | some (body, rest) =>
      (match vars.get? (key body) with
        | some value => value.toList
        | none => written body) ++ renderChars vars rest
  | none =>
      match cs with
      | [] => []
      | c :: rest => c :: renderChars vars rest
termination_by cs.length
decreasing_by
  · exact placeholder?_length ‹placeholder? cs = some (body, rest)›
  · simp

def render (template : String) (vars : Dictionary) : String :=
  String.ofList (renderChars vars template.toList)

end Mailroom.Content
