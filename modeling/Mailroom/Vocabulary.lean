/-!
Closed vocabularies: types of finitely many values that are stored and sent as words, and rows that
may hold a word outside of them.  Main statement: a word read and written again is the same word.
-/

namespace Mailroom

/-- A type whose values are written as words, no two the same. -/
class Vocabulary (σ : Type) where
  all : List σ
  word : σ → String
  find_word : ∀ s, all.find? (fun t => word t == word s) = some s

namespace Vocabulary

variable {σ : Type} [Vocabulary σ]

def ofWord? (text : String) : Option σ := (all : List σ).find? fun t => word t == text

@[simp] theorem ofWord?_word (s : σ) : ofWord? (word s) = some s := find_word s

theorem word_of_ofWord? {text : String} {s : σ} (h : ofWord? text = some s) : word s = text := by
  simpa using List.find?_some h

end Vocabulary

/-- What a row holds in a column of words: one of the vocabulary, or a text that is none of them. -/
inductive Stored (σ : Type) where
  | known (value : σ)
  | other (text : String)
deriving DecidableEq, Repr

instance {σ : Type} : Inhabited (Stored σ) := ⟨.other ""⟩

namespace Stored

variable {σ : Type} [Vocabulary σ]

def ofText (text : String) : Stored σ :=
  match Vocabulary.ofWord? text with
  | some value => .known value
  | none => .other text

def text : Stored σ → String
  | .known value => Vocabulary.word value
  | .other text => text

def value? : Stored σ → Option σ
  | .known value => some value
  | .other _ => none

@[simp] theorem text_ofText (text : String) : (ofText text : Stored σ).text = text := by
  unfold ofText
  split
  · rename_i h
    exact Vocabulary.word_of_ofWord? h
  · rfl

@[simp] theorem ofText_word (value : σ) : ofText (Vocabulary.word value) = known value := by
  simp [ofText]

end Stored

end Mailroom
