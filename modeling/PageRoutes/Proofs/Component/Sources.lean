import PageRoutes.Manifest.Compile
import PageRoutes.Proofs.Component.Spelling
import PageRoutes.Proofs.FileTree.Differing
/-!
The files that decide which component a route renders: the file of its closure, the file of its
class, and the file of the Fortify views if the package has a view for its action. What any other
file holds does not matter, and a file that cannot be read as text costs no route but those that
depend on it.
-/

set_option autoImplicit false

namespace PageRoutes

open Source

/-! ### Which files are read -/

namespace Layout

def closureFile? (layout : Layout) : Action → Option FilePath
  | .closure (some span) => some (layout.resolve span.file)
  | _ => none

def classFile? (layout : Layout) (tree : FileTree) (action : Action) : Option FilePath :=
  action.target?.bind fun (className, _) => layout.classes.locate tree className

def viewsFile? (layout : Layout) (action : Action) : Option FilePath :=
  (action.identifier?.bind fortifyRegistrar?).map fun _ => layout.fortifyProvider

def sources (layout : Layout) (tree : FileTree) (action : Action) : List FilePath :=
  (layout.closureFile? action).toList ++ (layout.classFile? tree action).toList ++
    (layout.viewsFile? action).toList

end Layout

/-- No file that is read for the route is the one at that place. -/
def Route.LeavesUnread (route : Route) (tree : FileTree) (layout : Layout) (place : Location) :
    Prop :=
  ∀ path ∈ layout.sources tree route.action, tree.place? path ≠ some place

instance (route : Route) (tree : FileTree) (layout : Layout) (place : Location) :
    Decidable (route.LeavesUnread tree layout place) :=
  inferInstanceAs (Decidable (∀ path ∈ layout.sources tree route.action, _))

section

variable {first second : FileTree} {place : Location} {layout : Layout} {route : Route}

/-- Classes are looked up by where there are files, not by what these hold. -/
theorem FileTree.DifferOnlyIn.locate_eq (differ : first.DifferOnlyIn second place)
    (lookup : ClassLookup) : lookup.locate first = lookup.locate second := by
  have isFile : first.isFile = second.isFile := funext differ.isFile_eq
  induction lookup with
  | namespaces map =>
      funext className
      rw [ClassLookup.locate, ClassLookup.locate, NamespaceMap.locate, NamespaceMap.locate, isFile]
  | controllers directories =>
      funext className
      rw [ClassLookup.locate, ClassLookup.locate, locateController, locateController, isFile]
  | assigned find => rfl
  | chain one other ihOne ihOther =>
      funext className
      rw [ClassLookup.locate, ClassLookup.locate, ihOne, ihOther]

theorem closureComponent?_eq_of_leavesUnread (differ : first.DifferOnlyIn second place)
    (unread : route.LeavesUnread first layout place) :
    closureComponent? first layout route = closureComponent? second layout route := by
  rw [closureComponent?, closureComponent?]
  split
  · next span isClosure =>
      have elsewhere : first.place? (layout.resolve span.file) ≠ some place := by
        apply unread
        simp [Layout.sources, Layout.closureFile?, isClosure]
      rw [FileTree.lineSpan?, FileTree.lineSpan?, differ.readText?_eq elsewhere]
  · rfl

theorem fortifyComponent?_eq_of_leavesUnread (differ : first.DifferOnlyIn second place)
    (unread : route.LeavesUnread first layout place) :
    fortifyComponent? first layout route = fortifyComponent? second layout route := by
  have installed : layout.hasPackage first fortifyPackage =
      layout.hasPackage second fortifyPackage := differ.isDirectory_eq _
  rw [fortifyComponent?, fortifyComponent?, installed]
  cases registrar : route.action.identifier?.bind fortifyRegistrar? with
  | none => rfl
  | some viewMethod =>
      have elsewhere : first.place? layout.fortifyProvider ≠ some place := by
        apply unread
        simp [Layout.sources, Layout.viewsFile?, registrar]
      rw [Option.bind_some, Option.bind_some, Layout.registeredView?, Layout.registeredView?,
        differ.readText?_eq elsewhere]

theorem controllerComponent?_eq_of_leavesUnread (differ : first.DifferOnlyIn second place)
    (unread : route.LeavesUnread first layout place) :
    controllerComponent? first layout route = controllerComponent? second layout route := by
  rw [controllerComponent?, controllerComponent?, ← differ.locate_eq]
  split
  · rfl
  · next className method isTarget =>
      cases located : layout.classes.locate first className with
      | none => rfl
      | some path =>
          have elsewhere : first.place? path ≠ some place := by
            apply unread
            simp [Layout.sources, Layout.classFile?, isTarget, located]
          rw [Option.bind_some, Option.bind_some, FileTree.componentOfMethod?,
            FileTree.componentOfMethod?, FileTree.methodBody?, FileTree.methodBody?,
            differ.readText?_eq elsewhere]

theorem StrategyChain.standard_resolve?_eq_of_leavesUnread
    (differ : first.DifferOnlyIn second place)
    (unread : route.LeavesUnread first layout place) :
    (standard first layout).resolve? route = (standard second layout).resolve? route := by
  rw [standard_resolve?_eq, standard_resolve?_eq,
    closureComponent?_eq_of_leavesUnread differ unread,
    fortifyComponent?_eq_of_leavesUnread differ unread,
    controllerComponent?_eq_of_leavesUnread differ unread]

end

/-! ### Manifests -/

namespace Manifest

def entriesByRoute (chain : StrategyChain) (filter : UriFilter) (routes : List Route) :
    List (Route × Entry) :=
  (filter.apply (candidates routes)).filterMap fun route =>
    (chain.resolve? route).map fun component => (route, Entry.ofRoute route component)

theorem map_snd_entriesByRoute (chain : StrategyChain) (filter : UriFilter)
    (routes : List Route) :
    (entriesByRoute chain filter routes).map Prod.snd = compile chain filter routes := by
  rw [entriesByRoute, compile, List.map_filterMap]
  simp only [Option.map_map]
  rfl

/-- Chains that agree on some routes give them the same entries, in the same order. -/
theorem filter_entriesByRoute {one other : StrategyChain} (chosen : Route → Bool)
    (agree : ∀ route, chosen route = true → one.resolve? route = other.resolve? route)
    (filter : UriFilter) (routes : List Route) :
    (entriesByRoute one filter routes).filter (fun shown => chosen shown.1) =
      (entriesByRoute other filter routes).filter (fun shown => chosen shown.1) := by
  rw [entriesByRoute, entriesByRoute]
  induction filter.apply (candidates routes) with
  | nil => rfl
  | cons route admitted ih =>
      cases isChosen : chosen route with
      | true =>
          rw [List.filterMap_cons, List.filterMap_cons, agree route isChosen]
          cases other.resolve? route with
          | none => exact ih
          | some component => simp [isChosen, ih]
      | false =>
          rw [List.filterMap_cons, List.filterMap_cons]
          cases one.resolve? route <;> cases other.resolve? route <;> simp [isChosen, ih]

end Manifest

/-- What one file holds, and whether that is text, matters to no route that it is not read for: such
routes render the same components, and manifests have the same entries for them in the same order. -/
theorem unread_file_does_not_count {first second : FileTree} {place : Location}
    (differ : first.DifferOnlyIn second place) (layout : Layout) :
    (∀ route : Route, route.LeavesUnread first layout place →
        (StrategyChain.standard first layout).resolve? route =
          (StrategyChain.standard second layout).resolve? route) ∧
      ∀ (filter : UriFilter) (routes : List Route),
        let before := Manifest.entriesByRoute (.standard first layout) filter routes
        let after := Manifest.entriesByRoute (.standard second layout) filter routes
        before.map Prod.snd = Manifest.compile (.standard first layout) filter routes ∧
          after.map Prod.snd = Manifest.compile (.standard second layout) filter routes ∧
          before.filter (fun shown => shown.1.LeavesUnread first layout place) =
            after.filter (fun shown => shown.1.LeavesUnread first layout place) := by
  have resolved (route : Route) (unread : route.LeavesUnread first layout place) :
      (StrategyChain.standard first layout).resolve? route =
        (StrategyChain.standard second layout).resolve? route :=
    StrategyChain.standard_resolve?_eq_of_leavesUnread differ unread
  refine ⟨resolved, ?_⟩
  intro filter routes
  refine ⟨Manifest.map_snd_entriesByRoute _ _ _, Manifest.map_snd_entriesByRoute _ _ _, ?_⟩
  exact Manifest.filter_entriesByRoute (fun route => route.LeavesUnread first layout place)
    (fun route chosen => resolved route (of_decide_eq_true chosen)) filter routes

/-! ### A project with a broken controller -/

def guestsSource : String :=
  r"class Guests { function index() { return inertia('Guests'); } }"

def guestbook : FileTree where
  entries :=
    [ ("routes", .directory [("web.php", .file (.text
        (r"Route::get('/', function () {" ++ "\n    return inertia('Home');\n" ++ r"});" ++
          "\n")))]),
      ("app", .directory [("Guests.php", .file (.text guestsSource))]) ]
  workingDirectory := []

def guestsFile : Location :=
  ["app", "Guests.php"]

def brokenGuestbook : FileTree :=
  guestbook.put guestsFile (.file (.binary ⟨#[0xFF]⟩))

def guestbookLayout : Layout :=
  ⟨⟨"/"⟩, ⟨"/app"⟩, .chain (.namespaces (.empty ⟨"/"⟩)) (.controllers [⟨"/app"⟩])⟩

def homeClosure : Route :=
  .new "/" (.closure (some ⟨⟨"routes/web.php"⟩, 1, 3⟩))

def guestsIndex : Route :=
  .new "guests" (.controller "App\\Guests" "index")

/-- The broken controller costs its own page and no other. -/
theorem broken_controller_costs_its_own_page :
    guestbook.DifferOnlyIn brokenGuestbook guestsFile ∧
      homeClosure.LeavesUnread guestbook guestbookLayout guestsFile ∧
      (StrategyChain.standard brokenGuestbook guestbookLayout).resolve? homeClosure =
        some "Home" ∧
      (StrategyChain.standard guestbook guestbookLayout).resolve? guestsIndex = some "Guests" ∧
      (StrategyChain.standard brokenGuestbook guestbookLayout).resolve? guestsIndex = none := by
  have there : guestbook.file? guestsFile = some (.text guestsSource) := by decide +kernel
  have differ : guestbook.DifferOnlyIn brokenGuestbook guestsFile :=
    FileTree.differOnlyIn_put there _
  have unread : homeClosure.LeavesUnread guestbook guestbookLayout guestsFile := by
    decide +kernel
  have kept := (unread_file_does_not_count differ guestbookLayout).1 homeClosure unread
  refine ⟨differ, unread, ?_, by decide +kernel, by decide +kernel⟩
  rw [← kept]
  decide +kernel

end PageRoutes
