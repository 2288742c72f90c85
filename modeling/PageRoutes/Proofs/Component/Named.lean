import PageRoutes.Component.Standard
import PageRoutes.Proofs.Text.Recogniser
/-!
Components have names. Every strategy for the host application finds a text that is not empty: a
default value has a JSON text, and a name is only read between quotation marks if there is one.
-/

set_option autoImplicit false

namespace PageRoutes

open Text

/-! ### Texts of values -/

theorem ofList_ne_empty {name : List Char} (nonempty : name ≠ []) : String.ofList name ≠ "" :=
  fun empty => nonempty (String.ofList_eq_empty_iff.mp empty)

namespace Json

theorem decimalText_ne_nil (digits : List Char) (magnitude : Int) :
    decimalText digits magnitude ≠ [] := by
  unfold decimalText
  dsimp only
  split
  · simp
  · split <;> simp

theorem Number.text_ne_nil (number : Number) : number.text ≠ [] := by
  cases number with
  | int value =>
      cases value with
      | ofNat value => exact Nat.toDigits_ne_nil
      | negSucc value => exact List.cons_ne_nil _ _
  | real value =>
      rw [Number.text]
      unfold realText
      dsimp only
      split
      · simp
      · exact List.append_ne_nil_of_right_ne_nil _ (decimalText_ne_nil _ _)

theorem Value.compact_ne_nil (value : Value) : value.compact ≠ [] := by
  cases value with
  | null => simp [Value.compact]
  | bool value => cases value <;> simp [Value.compact]
  | num number => exact number.text_ne_nil
  | str text => simp [Value.compact, quoted]
  | arr items => cases items <;> simp [Value.compact]
  | obj members => cases members <;> simp [Value.compact]

end Json

theorem componentOfDefault?_ne_empty {value : Json.Value} {component : String}
    (found : componentOfDefault? value = some component) : component ≠ "" := by
  have textNonempty : value.text ≠ "" := ofList_ne_empty value.compact_ne_nil
  cases value with
  | null => cases found
  | str text =>
      rw [componentOfDefault?] at found
      split at found
      · cases found
      · next nonempty =>
          cases found
          simpa using nonempty
  | _ =>
      cases found
      exact textNonempty

/-! ### Names in source text -/

namespace Source

theorem quotedName?_ne_nil {text name rest : List Char}
    (read : quotedName? text = some (name, rest)) : name ≠ [] := by
  unfold quotedName? at read
  split at read
  · cases read
  · split at read
    · split at read
      · cases read
        exact List.cons_ne_nil _ _
      · cases read
    · cases read

theorem callOf?_ne_nil {opening text name : List Char} (read : callOf? opening text = some name) :
    name ≠ [] := by
  unfold callOf? at read
  split at read
  · cases read
  · split at read
    · cases read
    · next named =>
        split at read
        · cases read
          exact quotedName?_ne_nil named
        · cases read

theorem renderedName?_ne_nil {text name : List Char} (read : renderedName? text = some name) :
    name ≠ [] := by
  obtain ⟨⟨quoted, rest⟩, named, rfl⟩ := Option.map_eq_some_iff.mp read
  obtain ⟨arguments, -, named⟩ := Option.bind_eq_some_iff.mp named
  exact quotedName?_ne_nil named

theorem registeredName?_ne_nil {viewMethod text name : List Char}
    (read : registeredName? viewMethod text = some name) : name ≠ [] := by
  unfold registeredName? at read
  split at read
  · cases read
  · split at read
    · obtain ⟨before, behind, -, named⟩ := exists_of_leftmost? read
      exact renderedName?_ne_nil named
    · cases read

theorem componentIn?_ne_empty {source component : String}
    (found : componentIn? source = some component) : component ≠ "" := by
  obtain ⟨name, named, rfl⟩ := Option.map_eq_some_iff.mp found
  apply ofList_ne_empty
  rcases Option.or_eq_some_iff.mp named with facade | ⟨-, helper⟩
  · obtain ⟨before, behind, -, called⟩ := exists_of_leftmost? facade
    exact callOf?_ne_nil called
  · obtain ⟨previous, before, behind, -, called⟩ := exists_of_leftmostBehind? helper
    unfold wholeWordCallOf? at called
    split at called
    · cases called
    · exact callOf?_ne_nil called

theorem registeredComponent?_ne_empty {source viewMethod component : String}
    (found : registeredComponent? source viewMethod = some component) : component ≠ "" := by
  obtain ⟨name, named, rfl⟩ := Option.map_eq_some_iff.mp found
  obtain ⟨before, behind, -, registered⟩ := exists_of_leftmost? named
  exact ofList_ne_empty (registeredName?_ne_nil registered)

end Source

/-! ### Strategies -/

section

variable {tree : FileTree} {layout : Layout} {route : Route} {component : String}

theorem closureComponent?_ne_empty (found : closureComponent? tree layout route = some component) :
    component ≠ "" := by
  unfold closureComponent? at found
  split at found
  · obtain ⟨source, -, named⟩ := Option.bind_eq_some_iff.mp found
    exact Source.componentIn?_ne_empty named
  · cases found

theorem fortifyComponent?_ne_empty (found : fortifyComponent? tree layout route = some component) :
    component ≠ "" := by
  unfold fortifyComponent? at found
  split at found
  · obtain ⟨viewMethod, -, registered⟩ := Option.bind_eq_some_iff.mp found
    obtain ⟨source, -, named⟩ := Option.bind_eq_some_iff.mp registered
    exact Source.registeredComponent?_ne_empty named
  · cases found

theorem controllerComponent?_ne_empty
    (found : controllerComponent? tree layout route = some component) : component ≠ "" := by
  unfold controllerComponent? at found
  split at found
  · cases found
  · obtain ⟨path, -, rendered⟩ := Option.bind_eq_some_iff.mp found
    obtain ⟨body, -, named⟩ := Option.bind_eq_some_iff.mp rendered
    exact Source.componentIn?_ne_empty named

/-- No route renders a component without a name. -/
theorem StrategyChain.standard_resolve?_ne_empty
    (found : (StrategyChain.standard tree layout).resolve? route = some component) :
    component ≠ "" := by
  obtain ⟨strategy, member, found⟩ := List.exists_of_findSome?_eq_some found
  simp only [StrategyChain.standard, List.mem_cons, List.not_mem_nil, or_false] at member
  rcases member with rfl | rfl | rfl | rfl
  · obtain ⟨value, -, named⟩ := Option.bind_eq_some_iff.mp found
    exact componentOfDefault?_ne_empty named
  · exact closureComponent?_ne_empty found
  · exact fortifyComponent?_ne_empty found
  · exact controllerComponent?_ne_empty found

end

end PageRoutes
