import PageRoutes.Proofs.Route.Actions
/-!
The identifiers of class-based actions. Reading an identifier and asking an action for its own undo
each other, up to the blanks around an identifier that is read: one law tells which texts name an
action, and both directions follow from it.
-/

set_option autoImplicit false

namespace PageRoutes.Action

open Text

variable {action : Action} {identifier core text : String}

def IsClassBased : Action → Prop
  | .controller _ _ => True
  | .invokable _ => True
  | .closure _ => False
  | .none => False

/-- The identifier of the action cannot be taken for that of another one: its class ends where the
first `@` is, and without a method it is a word that means nothing else. -/
def IsNameable : Action → Prop
  | .controller className _ => '@' ∉ className.toList
  | .invokable className => '@' ∉ className.toList ∧ className ≠ "" ∧ className ≠ "Closure"
  | .closure _ => False
  | .none => False

instance : (action : Action) → Decidable action.IsNameable
  | .controller className _ => inferInstanceAs (Decidable ('@' ∉ className.toList))
  | .invokable className =>
      inferInstanceAs (Decidable ('@' ∉ className.toList ∧ className ≠ "" ∧ className ≠ "Closure"))
  | .closure _ => inferInstanceAs (Decidable False)
  | .none => inferInstanceAs (Decidable False)

theorem isClassBased_iff :
    action.IsClassBased ↔ ∃ identifier, action.identifier? = some identifier := by
  cases action with
  | controller className method => exact ⟨fun _ => ⟨_, rfl⟩, fun _ => trivial⟩
  | invokable className => exact ⟨fun _ => ⟨_, rfl⟩, fun _ => trivial⟩
  | closure location => exact ⟨False.elim, fun named => by cases named.choose_spec⟩
  | none => exact ⟨False.elim, fun named => by cases named.choose_spec⟩

theorem ofIdentifier_of_isPadded (padded : IsPadded isBlank core.toList text.toList)
    (trimmed : IsTrimmed core.toList) : ofIdentifier text = ofIdentifier core := by
  unfold ofIdentifier
  rw [trimBlanks_eq_iff.mpr ⟨padded, trimmed⟩, trimBlanks_of_isTrimmed trimmed]

theorem exists_core (text : String) :
    ∃ core : String, IsPadded isBlank core.toList text.toList ∧ IsTrimmed core.toList := by
  refine ⟨String.ofList (trimBlanks text.toList), ?_⟩
  rw [String.toList_ofList]
  exact trimBlanks_eq_iff.mp rfl

/-- A trimmed text that is no word of its own is the identifier of what it names. -/
theorem identifier?_ofIdentifier (trimmed : IsTrimmed core.toList) (nonempty : core ≠ "")
    (different : core ≠ "Closure") :
    (ofIdentifier core).identifier? = some core ∧ (ofIdentifier core).IsNameable := by
  cases cut : cutAtFirst? '@' core.toList with
  | none =>
      have free := cutAtFirst?_eq_none_iff.mp cut
      rw [ofIdentifier_class free trimmed nonempty different]
      exact ⟨rfl, free, nonempty, different⟩
  | some parts =>
      obtain ⟨whole, free⟩ := cutAtFirst?_eq_some_iff.mp cut
      have spelled : core = String.ofList parts.1 ++ "@" ++ String.ofList parts.2 := by
        apply String.toList_inj.mp
        simp [whole]
      have freeClass : '@' ∉ (String.ofList parts.1).toList := by rwa [String.toList_ofList]
      rw [spelled] at trimmed ⊢
      rw [ofIdentifier_method freeClass trimmed]
      exact ⟨rfl, freeClass⟩

/-- A text names a class-based action exactly if it is the identifier of that action, perhaps with
blanks around it, and this identifier is trimmed and not that of another action. -/
theorem ofIdentifier_eq_iff (named : action.identifier? = some identifier) :
    ofIdentifier text = action ↔
      IsPadded isBlank identifier.toList text.toList ∧ IsTrimmed identifier.toList ∧
        action.IsNameable := by
  constructor
  · intro read
    -- The core of the text is the identifier of what is read, and so the given one.
    obtain ⟨core, padded, trimmed⟩ := exists_core text
    rw [ofIdentifier_of_isPadded padded trimmed] at read
    have nonempty : core ≠ "" := by
      intro same
      rw [← read, same] at named
      cases named
    have different : core ≠ "Closure" := by
      intro same
      rw [← read, same] at named
      cases named
    obtain ⟨namedSo, nameable⟩ := identifier?_ofIdentifier trimmed nonempty different
    rw [read] at namedSo nameable
    cases named.symm.trans namedSo
    exact ⟨padded, trimmed, nameable⟩
  · intro spelled
    obtain ⟨padded, trimmed, nameable⟩ := spelled
    rw [ofIdentifier_of_isPadded padded trimmed]
    cases action with
    | controller className method =>
        cases named
        exact ofIdentifier_method nameable trimmed
    | invokable className =>
        cases named
        obtain ⟨free, nonempty, different⟩ := nameable
        exact ofIdentifier_class free trimmed nonempty different
    | closure location => cases named
    | none => cases named

/-- What is left of a text without the blanks around it, if it is neither empty nor `Closure`, is
the identifier of the class-based action that the text names. Conversely, the identifier of a
class-based action names that action again if any text does, and this is so exactly if the
identifier is trimmed, the class holds no `@`, and an identifier without method is neither empty nor
`Closure`; the method may be any text. -/
theorem identifiers_and_actions_match :
    (∀ text core : String, IsPadded isBlank core.toList text.toList → IsTrimmed core.toList →
        core ≠ "" → core ≠ "Closure" →
          (ofIdentifier text).IsClassBased ∧ (ofIdentifier text).identifier? = some core) ∧
      ∀ action : Action, action.IsClassBased →
        ∃ identifier, action.identifier? = some identifier ∧
          ((∃ text, ofIdentifier text = action) → ofIdentifier identifier = action) ∧
          (ofIdentifier identifier = action ↔ action.IsNameable ∧ IsTrimmed identifier.toList) := by
  constructor
  · intro text core padded trimmed nonempty different
    have named := (identifier?_ofIdentifier trimmed nonempty different).1
    rw [ofIdentifier_of_isPadded padded trimmed]
    exact ⟨isClassBased_iff.mpr ⟨core, named⟩, named⟩
  · intro action classBased
    obtain ⟨identifier, named⟩ := isClassBased_iff.mp classBased
    have law (text : String) : ofIdentifier text = action ↔
        IsPadded isBlank identifier.toList text.toList ∧ IsTrimmed identifier.toList ∧
          action.IsNameable := ofIdentifier_eq_iff named
    refine ⟨identifier, named, ?_, ?_⟩
    · intro image
      obtain ⟨text, read⟩ := image
      exact (law identifier).mpr ⟨isPadded_self isBlank _, ((law text).mp read).2⟩
    · rw [law identifier, and_iff_right (isPadded_self isBlank _)]
      exact and_comm

/-- A class that is called like a closure, and a method text with another mark in it. -/
theorem closure_class_is_named_with_its_method :
    (ofIdentifier "\u00a0Closure@run@twice\n").identifier? = some "Closure@run@twice" ∧
      ofIdentifier "Closure@run@twice" = .controller "Closure" "run@twice" := by
  have padded : IsPadded isBlank "Closure@run@twice".toList "\u00a0Closure@run@twice\n".toList :=
    ⟨['\u00a0'], ['\n'], by decide, by decide, by decide⟩
  have read := identifiers_and_actions_match.1 _ _ padded (by decide) (by decide) (by decide)
  obtain ⟨identifier, named, -, exactly⟩ :=
    identifiers_and_actions_match.2 (.controller "Closure" "run@twice") trivial
  cases named
  exact ⟨read.2, exactly.mpr ⟨by decide, by decide⟩⟩

end PageRoutes.Action
