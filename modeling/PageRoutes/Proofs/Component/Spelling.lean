import PageRoutes.Command.Run
/-!
Different spellings of what a route leads to. Backslashes in front of a class never count: the views
of the Fortify package and both ways to find a source file leave them out. A class that is invoked as
a whole and its method `__invoke` lead to the same source text, but only the bare class can be a key
of the Fortify views, so the two spellings part where such a view is registered.
-/

set_option autoImplicit false

namespace PageRoutes

open Source

/-- The strategies for the host application, one after the other. -/
theorem StrategyChain.standard_resolve?_eq (tree : FileTree) (layout : Layout) (route : Route) :
    (standard tree layout).resolve? route =
      (defaultsComponent? route).or
        ((closureComponent? tree layout route).or
          ((fortifyComponent? tree layout route).or (controllerComponent? tree layout route))) := by
  simp only [standard, resolve?, List.findSome?, Strategy.find?, Strategy.routeDefaults,
    Strategy.closureSource, Strategy.fortifyViews, Strategy.controllerSource]
  cases defaultsComponent? route with
  | some component => rfl
  | none =>
      cases closureComponent? tree layout route with
      | some component => rfl
      | none =>
          cases fortifyComponent? tree layout route with
          | some component => rfl
          | none => cases controllerComponent? tree layout route <;> rfl

/-! ### Backslashes in front of a class -/

def backslashes (count : Nat) : String :=
  String.ofList (List.replicate count '\\')

def Action.qualified (count : Nat) : Action → Action
  | .controller className method => .controller (backslashes count ++ className) method
  | .invokable className => .invokable (backslashes count ++ className)
  | .closure location => .closure location
  | .none => .none

theorem dropWhile_backslashes (count : Nat) (text : String) :
    (backslashes count ++ text).toList.dropWhile (· == '\\') =
      text.toList.dropWhile (· == '\\') := by
  rw [String.toList_append, backslashes, String.toList_ofList]
  apply List.dropWhile_append_of_pos
  intro c member
  exact beq_iff_eq.mpr (List.eq_of_mem_replicate member)

theorem bareClassName_backslashes (count : Nat) (className : String) :
    bareClassName (backslashes count ++ className) = bareClassName className :=
  dropWhile_backslashes count className

theorem fortifyRegistrar?_backslashes (count : Nat) (identifier : String) :
    fortifyRegistrar? (backslashes count ++ identifier) = fortifyRegistrar? identifier := by
  rw [fortifyRegistrar?, fortifyRegistrar?, dropWhile_backslashes]

/-- The lookup sees nothing of a class but its name without the backslashes in front. -/
def ClassLookup.SeesBareName (lookup : ClassLookup) : Prop :=
  ∀ (tree : FileTree) (first second : String),
    bareClassName first = bareClassName second → lookup.locate tree first = lookup.locate tree second

namespace ClassLookup

theorem seesBareName_namespaces (map : NamespaceMap) : (namespaces map).SeesBareName := by
  intro tree first second same
  rw [locate, locate, NamespaceMap.locate, NamespaceMap.locate, same]

theorem seesBareName_controllers (directories : List FilePath) :
    (controllers directories).SeesBareName := by
  intro tree first second same
  rw [locate, locate, locateController, locateController, controllerFileNames,
    controllerFileNames, same]

theorem SeesBareName.chain {first second : ClassLookup} (firstSees : first.SeesBareName)
    (secondSees : second.SeesBareName) : (ClassLookup.chain first second).SeesBareName := by
  intro tree className other same
  rw [locate, locate, firstSees tree className other same, secondSees tree className other same]

end ClassLookup

section

variable (tree : FileTree) {layout : Layout} (route : Route) (action : Action) (count : Nat)

theorem closureComponent?_qualified :
    closureComponent? tree layout { route with action := action.qualified count } =
      closureComponent? tree layout { route with action := action } := by
  cases action <;> rfl

theorem fortifyComponent?_qualified :
    fortifyComponent? tree layout { route with action := action.qualified count } =
      fortifyComponent? tree layout { route with action := action } := by
  cases action with
  | controller className method =>
      simp only [fortifyComponent?, Action.qualified, Action.identifier?, Option.bind_some,
        String.append_assoc, fortifyRegistrar?_backslashes]
  | invokable className =>
      simp only [fortifyComponent?, Action.qualified, Action.identifier?, Option.bind_some,
        fortifyRegistrar?_backslashes]
  | closure location => rfl
  | none => rfl

theorem controllerComponent?_qualified (sees : layout.classes.SeesBareName) :
    controllerComponent? tree layout { route with action := action.qualified count } =
      controllerComponent? tree layout { route with action := action } := by
  have located (className : String) :
      layout.classes.locate tree (backslashes count ++ className) =
        layout.classes.locate tree className :=
    sees tree _ _ (bareClassName_backslashes count className)
  cases action with
  | controller className method =>
      simp only [controllerComponent?, Action.qualified, Action.target?, located]
  | invokable className =>
      simp only [controllerComponent?, Action.qualified, Action.target?, located]
  | closure location => rfl
  | none => rfl

theorem StrategyChain.standard_resolve?_qualified (sees : layout.classes.SeesBareName) :
    (standard tree layout).resolve? { route with action := action.qualified count } =
      (standard tree layout).resolve? { route with action := action } := by
  rw [standard_resolve?_eq, standard_resolve?_eq, closureComponent?_qualified,
    fortifyComponent?_qualified, controllerComponent?_qualified tree route action count sees]
  rfl

end

/-- Backslashes in front of a class never change the component of a route, neither in the layout
that a command makes from a configuration nor in any other one that looks classes up by namespaces
first and in the directories of controllers then. -/
theorem backslashes_of_class_do_not_count (tree : FileTree) (route : Route) (action : Action)
    (count : Nat) :
    (∀ (root appDir : FilePath) (map : NamespaceMap) (directories : List FilePath),
        (StrategyChain.standard tree
            ⟨root, appDir, .chain (.namespaces map) (.controllers directories)⟩).resolve?
          { route with action := action.qualified count } =
        (StrategyChain.standard tree
            ⟨root, appDir, .chain (.namespaces map) (.controllers directories)⟩).resolve?
          { route with action := action }) ∧
      ∀ (declaring : FileTree) (root : FilePath) (settings : Settings),
        (StrategyChain.standard tree (Command.layoutOf declaring root settings)).resolve?
          { route with action := action.qualified count } =
        (StrategyChain.standard tree (Command.layoutOf declaring root settings)).resolve?
          { route with action := action } := by
  have sees (map : NamespaceMap) (directories : List FilePath) :
      (ClassLookup.chain (.namespaces map) (.controllers directories)).SeesBareName :=
    (ClassLookup.seesBareName_namespaces map).chain
      (ClassLookup.seesBareName_controllers directories)
  constructor
  · intro root appDir map directories
    exact StrategyChain.standard_resolve?_qualified tree route action count (sees map directories)
  · intro declaring root settings
    exact StrategyChain.standard_resolve?_qualified tree route action count (sees _ _)

/-! ### A class invoked as a whole and its method by name -/

theorem mem_dropWhile_of_mem {drop : Char → Bool} {text : List Char} {c : Char}
    (member : c ∈ text) (keeps : drop c = false) : c ∈ text.dropWhile drop := by
  rw [← List.takeWhile_append_dropWhile (p := drop) (l := text)] at member
  rcases List.mem_append.mp member with front | rest
  · have drops := List.all_eq_true.mp List.all_takeWhile c front
    rw [keeps] at drops
    cases drops
  · exact rest

theorem underscore_not_mem_fortifyRegistrars : ∀ row ∈ fortifyRegistrars, '_' ∉ row.1.toList := by
  intro row member
  simp only [fortifyRegistrars, List.mem_cons, List.not_mem_nil, or_false] at member
  rcases member with rfl | rfl | rfl | rfl | rfl | rfl | rfl <;>
    (rw [String.toList_ofList]; decide)

/-- The Fortify package has views for some classes and for some methods, and none of these methods
is the one that runs when a class is invoked as a whole. -/
theorem fortifyRegistrar?_invokeMethod (className : String) :
    fortifyRegistrar? (className ++ "@" ++ Action.invokeMethod) = none := by
  -- The name of the method brings an underscore into the key, and no key of the table has one.
  have underscore : '_' ∈ (className ++ "@" ++ Action.invokeMethod).toList := by
    rw [String.toList_append]
    exact List.mem_append_right _ (by decide +kernel)
  rw [fortifyRegistrar?]
  have stays : '_' ∈ (className ++ "@" ++ Action.invokeMethod).toList.dropWhile (· == '\\') :=
    mem_dropWhile_of_mem underscore (by decide)
  generalize (className ++ "@" ++ Action.invokeMethod).toList.dropWhile (· == '\\') = bare at stays ⊢
  cases found : fortifyRegistrars.lookup (String.ofList bare) with
  | none => rfl
  | some viewMethod =>
      obtain ⟨before, behind, isTable, -⟩ := List.lookup_eq_some_iff.mp found
      have member : (String.ofList bare, viewMethod) ∈ fortifyRegistrars := by
        rw [isTable]
        exact List.mem_append_right before List.mem_cons_self
      have absent := underscore_not_mem_fortifyRegistrars _ member
      rw [String.toList_ofList] at absent
      exact absurd stays absent

section

variable (tree : FileTree) (layout : Layout) (route : Route) (className : String)

theorem closureComponent?_invokable :
    closureComponent? tree layout { route with action := .invokable className } = none :=
  rfl

theorem fortifyComponent?_invokeMethod :
    fortifyComponent? tree layout
      { route with action := .controller className Action.invokeMethod } = none := by
  simp [fortifyComponent?, Action.identifier?, fortifyRegistrar?_invokeMethod]

theorem fortifyComponent?_invokable_eq_some_iff {component : String} :
    fortifyComponent? tree layout { route with action := .invokable className } = some component ↔
      ∃ viewMethod, layout.hasPackage tree fortifyPackage = true ∧
        fortifyRegistrar? className = some viewMethod ∧
        layout.registeredView? tree viewMethod = some component := by
  simp [fortifyComponent?, Action.identifier?, Option.bind_eq_some_iff]

theorem or_or_eq_or_iff {first second third : Option String} :
    first.or (second.or third) = first.or third ↔
      first.isSome ∨ ∀ component, second = some component → third = some component := by
  cases first with
  | some component => simp
  | none => cases second <;> simp [eq_comm]

/-- A class that is invoked as a whole and its method `__invoke` render the same component, unless
the Fortify package has a view for the class, the project registers a component for that view, and
this is not the component that the method renders. -/
theorem invocation_by_name_agrees_iff :
    (StrategyChain.standard tree layout).resolve? { route with action := .invokable className } =
        (StrategyChain.standard tree layout).resolve?
          { route with action := .controller className Action.invokeMethod } ↔
      (defaultsComponent? route).isSome ∨
        ∀ component viewMethod, layout.hasPackage tree fortifyPackage = true →
          fortifyRegistrar? className = some viewMethod →
          layout.registeredView? tree viewMethod = some component →
          (layout.classes.locate tree className).bind
            (tree.componentOfMethod? · Action.invokeMethod) = some component := by
  let rendered := (layout.classes.locate tree className).bind
    (tree.componentOfMethod? · Action.invokeMethod)
  have whole : (StrategyChain.standard tree layout).resolve?
      { route with action := .invokable className } =
        (defaultsComponent? route).or
          ((fortifyComponent? tree layout { route with action := .invokable className }).or
            rendered) := by
    rw [StrategyChain.standard_resolve?_eq, closureComponent?_invokable, Option.none_or]
    rfl
  have byName : (StrategyChain.standard tree layout).resolve?
      { route with action := .controller className Action.invokeMethod } =
        (defaultsComponent? route).or rendered := by
    rw [StrategyChain.standard_resolve?_eq, fortifyComponent?_invokeMethod, Option.none_or]
    rfl
  rw [whole, byName, or_or_eq_or_iff]
  simp only [fortifyComponent?_invokable_eq_some_iff, forall_exists_index, and_imp]
  rfl

end

def promptProject : FileTree where
  entries :=
    [ ("vendor", .directory [("laravel", .directory [("fortify", .directory [])])]),
      ("app", .directory [("Providers", .directory [("FortifyServiceProvider.php", .file (.text
        "Fortify::verifyEmailView(fn () => Inertia::render('auth/verify-email'));"))])]) ]
  workingDirectory := []

def promptClass : String :=
  "Laravel\\Fortify\\Http\\Controllers\\EmailVerificationPromptController"

def promptLayout : Layout :=
  .usual promptProject ⟨"/"⟩

def promptRoute : Route :=
  .new "email/verify" .none

/-- The page of the prompt is found for its class and missed for the method of that class. -/
theorem prompt_is_missed_by_method_name :
    (StrategyChain.standard promptProject promptLayout).resolve?
        { promptRoute with action := .invokable promptClass } ≠
      (StrategyChain.standard promptProject promptLayout).resolve?
        { promptRoute with action := .controller promptClass Action.invokeMethod } := by
  intro same
  rcases (invocation_by_name_agrees_iff promptProject promptLayout promptRoute promptClass).mp same
    with named | agrees
  · exact absurd named (by decide +kernel)
  · have rendered := agrees "auth/verify-email" "verifyEmailView" (by decide +kernel)
      (by decide +kernel) (by decide +kernel)
    exact absurd rendered (by decide +kernel)

end PageRoutes
