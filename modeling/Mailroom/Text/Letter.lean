/-!
Letter case.  Names of domains, statuses and media types are compared without regard to the case of
their ASCII letters; other letters are left alone.  Names of settings are compared in lower case,
which for one other character is an ASCII letter.
-/

namespace Mailroom.Text

/-- Lower-case the ASCII letters. -/
def lowered (s : String) : String := String.ofList (s.toList.map Char.toLower)

@[simp] theorem toList_lowered (s : String) : (lowered s).toList = s.toList.map Char.toLower := by
  simp [lowered]

@[simp] theorem lowered_lowered (s : String) : lowered (lowered s) = lowered s := by
  have hchar : Char.toLower ∘ Char.toLower = Char.toLower := by
    funext c
    unfold Function.comp Char.toLower
    grind
  rw [lowered, toList_lowered, List.map_map, hchar, lowered]

/-- The lower case of a character where it is an ASCII letter: beyond the ASCII letters only the
sign of the kelvin has one. -/
def foldedChar (c : Char) : Char := if c = '\u212a' then 'k' else c.toLower

/-- Lower-case all characters that have an ASCII lower case. -/
def folded (s : String) : String := String.ofList (s.toList.map foldedChar)

end Mailroom.Text
