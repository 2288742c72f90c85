import PageRoutes.Text.Recogniser
import PageRoutes.Text.WordCharacter
/-!
Placeholders in route URIs. A placeholder is a name of word characters in braces, with a question
mark behind the name if the parameter may be left out. The client writes `:name` and `:name?`
instead, and a pattern of the client always starts with a slash.
-/

set_option autoImplicit false

namespace PageRoutes

open Text

structure Parameter where
  name : String
  required : Bool
deriving DecidableEq, Repr

namespace Uri

def readName? (text : List Char) : Option (List Char × List Char) :=
  match cutRun isWordCharacter text with
  | ([], _) => none
  | (c :: name, rest) => some (c :: name, rest)

def readPlaceholder? : List Char → Option ((List Char × Bool) × List Char)
  | '{' :: text =>
      match readName? text with
      | some (name, '}' :: rest) => some ((name, true), rest)
      | some (name, '?' :: '}' :: rest) => some ((name, false), rest)
      | _ => none
  | _ => none

theorem length_of_readName? {text name rest : List Char}
    (h : readName? text = some (name, rest)) : rest.length < text.length := by
  unfold readName? at h
  split at h
  · cases h
  · next cut =>
      cases h
      have parts := length_of_cutRun cut
      rw [List.length_cons] at parts
      omega

theorem length_of_readPlaceholder? {text rest : List Char} {found : List Char × Bool}
    (h : readPlaceholder? text = some (found, rest)) : rest.length < text.length := by
  unfold readPlaceholder? at h
  split at h
  · split at h
    · next read =>
        cases h
        have := length_of_readName? read
        simp only [List.length_cons] at this ⊢
        omega
    · next read =>
        cases h
        have := length_of_readName? read
        simp only [List.length_cons] at this ⊢
        omega
    · cases h
  · cases h

def placeholder : Recogniser (List Char × Bool) where
  read := readPlaceholder?
  shorter := length_of_readPlaceholder?

def placeholderOf (required : Bool) : Recogniser (List Char) where
  read text :=
    match readPlaceholder? text with
    | some ((name, kind), rest) => if kind = required then some (name, rest) else none
    | none => none
  shorter := by
    intro text rest name h
    split at h
    · next read =>
        split at h
        · cases h
          exact length_of_readPlaceholder? read
        · cases h
    · cases h

def parameters (uri : String) : List Parameter :=
  (placeholder.all uri.toList).map fun (name, required) => ⟨String.ofList name, required⟩

/-- The pattern with the same literal parts, in which the client writes its placeholders. Those that
may be left out are written first, the others in a second pass. -/
def patternText (uri : List Char) : List Char :=
  let optional := (placeholderOf false).replaceAll (fun name => ':' :: name ++ ['?']) uri
  (placeholderOf true).replaceAll (fun name => ':' :: name) optional

def pattern (uri : String) : String :=
  match patternText uri.toList with
  | '/' :: text => String.ofList ('/' :: text)
  | text => String.ofList ('/' :: text)

end Uri

end PageRoutes
