import PageRoutes.Text.Blank
import PageRoutes.Text.Recogniser
/-!
Reading the components and the middleware out of the text of a manifest, without reading it as a
module. Fields are found by their labels wherever these stand, and a text ends at the next single
quote, escaped or not.
-/

set_option autoImplicit false

namespace PageRoutes.Manifest

open Text

def readQuoted? : List Char → Option (List Char × List Char)
  | '\'' :: text =>
      match cutRun (· ≠ '\'') text with
      | (c :: quoted, _ :: rest) => some (c :: quoted, rest)
      | _ => none
  | _ => none

theorem length_of_readQuoted? {text quoted rest : List Char}
    (h : readQuoted? text = some (quoted, rest)) : rest.length < text.length := by
  unfold readQuoted? at h
  split at h
  · split at h
    · next cut =>
        cases h
        have parts := length_of_cutRun cut
        simp only [List.length_cons] at parts ⊢
        omega
    · cases h
  · cases h

def readField? {α : Type} (label : List Char) (read : List Char → Option (α × List Char))
    (text : List Char) : Option (α × List Char) :=
  match after? label text with
  | none => none
  | some rest => read (skipBlanks rest)

theorem length_of_readField? {α : Type} {label : List Char}
    {read : List Char → Option (α × List Char)}
    (shorter : ∀ {text rest found}, read text = some (found, rest) → rest.length < text.length)
    {text rest : List Char} {found : α} (h : readField? label read text = some (found, rest)) :
    rest.length < text.length := by
  unfold readField? at h
  split at h
  · cases h
  · next behind read =>
      have := shorter h
      have := length_skipBlanks_le behind
      have := length_of_after? read
      omega

def componentLabel : List Char := "component:".toList

def middlewareLabel : List Char := "middleware:".toList

def readList? : List Char → Option (List Char × List Char)
  | '[' :: text =>
      match cutRun (· ≠ ']') text with
      | (list, _ :: rest) => some (list, rest)
      | (_, []) => none
  | _ => none

theorem length_of_readList? {text list rest : List Char}
    (h : readList? text = some (list, rest)) : rest.length < text.length := by
  unfold readList? at h
  split at h
  · split at h
    · next cut =>
        cases h
        have parts := length_of_cutRun cut
        simp only [List.length_cons] at parts ⊢
        omega
    · cases h
  · cases h

def quotedTexts : Recogniser (List Char) :=
  ⟨readQuoted?, length_of_readQuoted?⟩

def componentFields : Recogniser (List Char) :=
  ⟨readField? componentLabel readQuoted?, length_of_readField? length_of_readQuoted?⟩

def middlewareFields : Recogniser (List Char) :=
  ⟨readField? middlewareLabel readList?, length_of_readField? length_of_readList?⟩

/-- The components that the text of a manifest names, each once, in the order in which they are
first named. -/
def componentsIn (text : String) : List String :=
  ((componentFields.all text.toList).map String.ofList).eraseDups

def middlewareIn (text : String) : List String :=
  (((middlewareFields.all text.toList).flatMap quotedTexts.all).map String.ofList).eraseDups

end PageRoutes.Manifest
