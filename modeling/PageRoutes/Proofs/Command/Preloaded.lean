import PageRoutes.Command.Run
import PageRoutes.Proofs.FileTree.Written
import PageRoutes.Proofs.Manifest.Compiled
/-!
Generating a manifest and printing the tags of its pages. The two commands choose on their own how a
manifest is written and how it is read; they agree on modules whose patterns and middleware do not
look like the label of a component.
-/

set_option autoImplicit false

namespace PageRoutes

/-! ### The text of the tags -/

namespace Preload

theorem tags_eq_map {preload : Preload} {build : BuildManifest} {components : List String}
    {file : String → String}
    (complete : ∀ component ∈ components,
      preload.fileOf? build component = some (file component)) :
    preload.tags build components = components.map fun component => preload.tag (file component) := by
  induction components with
  | nil => rfl
  | cons component others ih =>
      have found := complete component List.mem_cons_self
      have rest := ih fun other member => complete other (List.mem_cons_of_mem component member)
      rw [tags] at rest
      rw [tags, List.filterMap_cons, found, Option.map_some, rest]
      rfl

theorem tag_ne_empty (preload : Preload) (file : String) : preload.tag file ≠ "" := by
  intro empty
  delta tag at empty
  exact absurd (String.append_eq_empty_iff.mp empty).2 (by decide)

theorem tags_ne_empty {preload : Preload} {build : BuildManifest} {components : List String}
    {tag : String} (member : tag ∈ preload.tags build components) : tag ≠ "" := by
  obtain ⟨component, -, tagged⟩ := List.mem_filterMap.mp member
  obtain ⟨file, -, rfl⟩ := Option.map_eq_some_iff.mp tagged
  exact preload.tag_ne_empty file

/-- The text of some tags is empty only if there are none. -/
theorem intercalate_eq_empty_iff {tags : List String} (texts : ∀ tag ∈ tags, tag ≠ "") :
    tagSeparator.intercalate tags = "" ↔ tags = [] := by
  constructor
  · intro empty
    cases tags with
    | nil => rfl
    | cons first others =>
        have firstNonempty := texts first List.mem_cons_self
        cases others with
        | nil =>
            rw [String.intercalate_singleton] at empty
            exact absurd empty firstNonempty
        | cons second others =>
            rw [String.intercalate_cons_cons, String.append_eq_empty_iff,
              String.append_eq_empty_iff] at empty
            exact absurd empty.1.1 firstNonempty
  · rintro rfl
    rfl

def printed (tags : List String) : String :=
  if tags = [] then "" else tagSeparator.intercalate tags ++ "\n"

theorem printed_eq {tags : List String} (texts : ∀ tag ∈ tags, tag ≠ "") :
    (if (tagSeparator.intercalate tags).isEmpty then ""
      else tagSeparator.intercalate tags ++ "\n") = printed tags := by
  rw [printed]
  exact if_congr (String.isEmpty_iff.trans (intercalate_eq_empty_iff texts)) rfl rfl

end Preload

/-! ### One command after the other -/

namespace Command

def entriesOf (tree : FileTree) (root : FilePath) (settings : Settings) (routes : List Route) :
    List Manifest.Entry :=
  Manifest.compile (.standard tree (layoutOf tree root settings)) settings.routes routes

/-- A run that writes the manifest of a project to where its configuration says. -/
structure Generates (tree : FileTree) (environment : Environment) (options : GenerateOptions)
    (root : FilePath) (settings : Settings) (routes : List Route) : Prop where
  isRoot : projectRoot tree options.project = root
  configured : loadSettings tree environment root options.config = .ok settings
  enabled : settings.enabled = true
  listed : loadRoutes tree (root.resolve (options.routes.getD routesFile)) = .ok routes
  place : options.path.getD settings.manifestPath = settings.manifestPath
  succeeded : (generate tree environment options).failure = none

/-- A run after which the project has the same configuration and was built. -/
structure Publishes (tree : FileTree) (environment : Environment) (options : GenerateOptions)
    (root : FilePath) (settings : Settings) (routes : List Route) (build : BuildManifest) :
    Prop extends Generates tree environment options root settings routes where
  stillConfigured : loadSettings (generate tree environment options).tree environment root
    options.config = .ok settings
  built : (Preload.ofSettings root settings).buildManifest?
    (generate tree environment options).tree = some build

section

variable {tree : FileTree} {environment : Environment} {options : GenerateOptions}
variable {root : FilePath} {settings : Settings} {routes : List Route} {build : BuildManifest}

theorem Generates.written (run : Generates tree environment options root settings routes) :
    Manifest.write tree (root.resolve settings.manifestPath)
        (.ofPath (root.resolve settings.manifestPath)) (entriesOf tree root settings routes) =
      ⟨(generate tree environment options).tree, none⟩ := by
  have succeeded := run.succeeded
  unfold generate at succeeded ⊢
  simp only [run.isRoot, run.configured, run.enabled, not_true_eq_false, if_false, run.listed,
    run.place] at succeeded ⊢
  rw [entriesOf]
  split at succeeded
  · cases succeeded
  · next written done => rw [done]

theorem Generates.projectRoot_eq (run : Generates tree environment options root settings routes) :
    projectRoot (generate tree environment options).tree options.project = root := by
  rw [projectRoot, (FileTree.readText?_writeNested run.written).2, ← run.isRoot, projectRoot]

/-- What is printed after a manifest was generated is told by its text. -/
theorem Publishes.preload_eq
    (run : Publishes tree environment options root settings routes build) :
    preload (generate tree environment options).tree environment
        ⟨options.project, options.config⟩ =
      ⟨Preload.printed ((Preload.ofSettings root settings).tags build (Manifest.componentsIn
          (Manifest.render (.ofPath (root.resolve settings.manifestPath))
            (entriesOf tree root settings routes)))),
        (generate tree environment options).tree, none⟩ := by
  have read := (FileTree.readText?_writeNested run.written).1
  have components : (Preload.ofSettings root settings).components
      (generate tree environment options).tree =
        Manifest.componentsIn (Manifest.render (.ofPath (root.resolve settings.manifestPath))
          (entriesOf tree root settings routes)) := by
    rw [Preload.components]
    simp only [Preload.ofSettings, read]
  have text : (Preload.ofSettings root settings).text (generate tree environment options).tree =
      tagSeparator.intercalate ((Preload.ofSettings root settings).tags build
        (Manifest.componentsIn (Manifest.render (.ofPath (root.resolve settings.manifestPath))
          (entriesOf tree root settings routes)))) := by
    delta Preload.text
    simp only [run.built, components]
  unfold preload
  simp only [run.projectRoot_eq, run.stillConfigured, text]
  rw [Preload.printed_eq fun tag member => Preload.tags_ne_empty member]

/-- Generating and printing agree on modules: after a manifest was written where the configuration
says, one tag is printed for each component of its entries, in the order in which they first occur.
No component needs escapes, and no pattern and no middleware ends like the label of a component. -/
theorem preload_shows_generated_components (file : String → String)
    (run : Publishes tree environment options root settings routes build)
    (isModule : Manifest.Format.ofPath (root.resolve settings.manifestPath) = .module)
    (plain : ∀ entry ∈ entriesOf tree root settings routes,
      ∀ c ∈ entry.component.toList, Manifest.IsPlain c)
    (safe : ∀ entry ∈ entriesOf tree root settings routes,
      ∀ text ∈ entry.pattern :: entry.middleware, ¬Manifest.EndsInComponentLabel text)
    (complete : ∀ entry ∈ entriesOf tree root settings routes,
      (Preload.ofSettings root settings).fileOf? build entry.component =
        some (file entry.component)) :
    preload (generate tree environment options).tree environment
        ⟨options.project, options.config⟩ =
      ⟨Preload.printed
          (((entriesOf tree root settings routes).map (·.component)).eraseDups.map
            fun component => (Preload.ofSettings root settings).tag (file component)),
        (generate tree environment options).tree, none⟩ := by
  have shows (entry : Manifest.Entry) (member : entry ∈ entriesOf tree root settings routes) :
      entry.ShowsComponent :=
    Manifest.showsComponent_of_mem_compile member (plain entry member) (safe entry member)
  have same : (entriesOf tree root settings routes).map
      (fun entry => Manifest.escaped entry.component) =
        (entriesOf tree root settings routes).map (·.component) :=
    List.map_congr_left fun entry member => Manifest.escaped_of_isPlain (plain entry member)
  have found : ∀ component ∈
      ((entriesOf tree root settings routes).map (·.component)).eraseDups,
      (Preload.ofSettings root settings).fileOf? build component = some (file component) := by
    intro component member
    obtain ⟨entry, present, rfl⟩ := List.mem_map.mp (List.mem_eraseDups.mp member)
    exact complete entry present
  rw [run.preload_eq, isModule, Manifest.render, Manifest.componentsIn_moduleText shows, same,
    Preload.tags_eq_map found]

end

/-! ### Projects with few pages -/

def project (manifestPath routes build : String) : FileTree where
  entries :=
    [ ("force10.json", .file (.text (r#"{"manifest_path": ""# ++ manifestPath ++ r#""}"#))),
      ("routes.json", .file (.text routes)),
      ("public", .directory [("build", .directory [("manifest.json", .file (.text build))])]) ]
  workingDirectory := []

def routesIn (tree : FileTree) : List Route :=
  (loadRoutes tree ⟨"/routes.json"⟩).toOption.getD []

def homeSettings (manifestPath : String) : Settings :=
  { Settings.default with manifestPath := ⟨manifestPath⟩ }

def noVariables : Environment :=
  fun _ => none

def usualOptions : GenerateOptions :=
  ⟨none, none, none, none, false⟩

/-- What has to be evaluated to see that the manifest of a project is generated. -/
def publishChecks (tree : FileTree) (settings : Settings) (build : BuildManifest) : Bool :=
  let run := generate tree noVariables usualOptions
  decide (projectRoot tree none = ⟨"/"⟩) && settings.enabled &&
    decide (loadSettings tree noVariables ⟨"/"⟩ none = .ok settings) &&
    (loadRoutes tree ⟨"/routes.json"⟩).isOk &&
    decide (run.failure = none) &&
    decide (loadSettings run.tree noVariables ⟨"/"⟩ none = .ok settings) &&
    decide ((Preload.ofSettings ⟨"/"⟩ settings).buildManifest? run.tree = some build)

theorem publishes_of_checks {tree : FileTree} {settings : Settings} {build : BuildManifest}
    (checks : publishChecks tree settings build = true) :
    Publishes tree noVariables usualOptions ⟨"/"⟩ settings (routesIn tree) build := by
  simp only [publishChecks, Bool.and_eq_true, decide_eq_true_eq] at checks
  obtain ⟨⟨⟨⟨⟨⟨isRoot, enabled⟩, configured⟩, isListed⟩, succeeded⟩, stillConfigured⟩, built⟩ :=
    checks
  have listed : loadRoutes tree ⟨"/routes.json"⟩ = .ok (routesIn tree) := by
    rw [routesIn]
    cases loaded : loadRoutes tree ⟨"/routes.json"⟩ with
    | error failure =>
        rw [loaded] at isListed
        cases isListed
    | ok routes => rfl
  exact
    { isRoot := isRoot
      configured := configured
      enabled := enabled
      listed := listed
      place := rfl
      succeeded := succeeded
      stillConfigured := stillConfigured
      built := built }

def sitePages : FileTree :=
  project "m.ts"
    (r#"[{"uri": "about", "methods": ["GET"], "defaults": {"component": "About"}}, "# ++
      r#"{"uri": "home", "methods": ["GET"], "defaults": {"component": "Home"}}, "# ++
      r#"{"uri": "team", "methods": ["GET"], "defaults": {"component": "About"}}]"#)
    (r#"{"resources/js/pages/Home.tsx": {"file": "home.js"}, "# ++
      r#""resources/js/pages/About.tsx": {"file": "about.js"}}"#)

def siteBuild : BuildManifest :=
  [("resources/js/pages/About.tsx", "about.js"), ("resources/js/pages/Home.tsx", "home.js")]

def siteFile (component : String) : String :=
  if component = "Home" then "home.js" else "about.js"

theorem entriesOf_sitePages :
    entriesOf sitePages ⟨"/"⟩ (homeSettings "m.ts") (routesIn sitePages) =
      [⟨"/about", "About", [], [], none⟩, ⟨"/home", "Home", [], [], none⟩,
        ⟨"/team", "About", [], [], none⟩] := by
  decide +kernel

/-- One tag is printed for each page, in the order of the routes. -/
theorem preload_shows_pages_of_site :
    (preload (generate sitePages noVariables usualOptions).tree noVariables ⟨none, none⟩).output =
      r#"<link rel="modulepreload" href="/build/about.js">"# ++ "\n    " ++
        r#"<link rel="modulepreload" href="/build/home.js">"# ++ "\n" := by
  have run : Publishes sitePages noVariables usualOptions ⟨"/"⟩ (homeSettings "m.ts")
      (routesIn sitePages) siteBuild := publishes_of_checks (by decide +kernel)
  have absent : ∀ text ∈ ["/about", "/home", "/team"],
      ¬Manifest.componentLabel <:+: text.toList := by
    decide +kernel
  have shown := preload_shows_generated_components siteFile run (by decide +kernel)
    (by rw [entriesOf_sitePages]; decide +kernel)
    (by
      rw [entriesOf_sitePages]
      intro entry member text present
      have isPattern : text ∈ ["/about", "/home", "/team"] := by
        simp only [List.mem_cons, List.not_mem_nil, or_false] at member
        rcases member with rfl | rfl | rfl
        all_goals
          rw [List.mem_singleton.mp present]
          decide
      exact Manifest.not_endsInComponentLabel_of_not_infix (absent text isPattern))
    (by rw [entriesOf_sitePages]; decide +kernel)
  have output := congrArg Outcome.output shown
  rw [entriesOf_sitePages] at output
  refine output.trans ?_
  decide +kernel

/-! ### A page that is missed -/

def homeProject (manifestPath uri : String) : FileTree :=
  project manifestPath
    (r#"[{"uri": ""# ++ uri ++
      r#"", "methods": ["GET"], "defaults": {"component": "Home"}}]"#)
    r#"{"resources/js/pages/Home.tsx": {"file": "home.js"}}"#

def homeRoutes (manifestPath uri : String) : List Route :=
  routesIn (homeProject manifestPath uri)

def homeBuild : BuildManifest :=
  [("resources/js/pages/Home.tsx", "home.js")]

def HomePublishes (manifestPath uri : String) : Prop :=
  Publishes (homeProject manifestPath uri) noVariables usualOptions ⟨"/"⟩
    (homeSettings manifestPath) (homeRoutes manifestPath uri) homeBuild

def homeEntry (uri : String) : Manifest.Entry :=
  ⟨Uri.pattern uri, "Home", [], Uri.parameters uri, none⟩

theorem fileOf?_home (manifestPath : String) :
    (Preload.ofSettings ⟨"/"⟩ (homeSettings manifestPath)).fileOf? homeBuild "Home" =
      some "home.js" := by
  change (Preload.ofSettings ⟨"/"⟩ Settings.default).fileOf? homeBuild "Home" = some "home.js"
  decide +kernel

/-- Nothing is printed for the page of the project, although its manifest was generated, the page
was built, and the URI does not hold the label of a component. -/
def MissesHome (manifestPath uri : String) : Prop :=
  HomePublishes manifestPath uri ∧
    ¬Manifest.componentLabel <:+: uri.toList ∧
    entriesOf (homeProject manifestPath uri) ⟨"/"⟩ (homeSettings manifestPath)
      (homeRoutes manifestPath uri) = [homeEntry uri] ∧
    (Preload.ofSettings ⟨"/"⟩ (homeSettings manifestPath)).fileOf? homeBuild "Home" =
      some "home.js" ∧
    (preload (generate (homeProject manifestPath uri) noVariables usualOptions).tree noVariables
      ⟨none, none⟩).output = ""

theorem missesHome_of_checks {manifestPath uri : String} (format : Manifest.Format)
    (checks : publishChecks (homeProject manifestPath uri) (homeSettings manifestPath) homeBuild =
      true)
    (absent : ¬Manifest.componentLabel <:+: uri.toList)
    (entries : entriesOf (homeProject manifestPath uri) ⟨"/"⟩ (homeSettings manifestPath)
      (homeRoutes manifestPath uri) = [homeEntry uri])
    (isFormat : Manifest.Format.ofPath
      (FilePath.resolve ⟨"/"⟩ (homeSettings manifestPath).manifestPath) = format)
    (untagged : (Preload.ofSettings ⟨"/"⟩ (homeSettings manifestPath)).tags homeBuild
      (Manifest.componentsIn (Manifest.render format [homeEntry uri])) = []) :
    MissesHome manifestPath uri := by
  have run : HomePublishes manifestPath uri := publishes_of_checks checks
  refine ⟨run, absent, entries, fileOf?_home manifestPath, ?_⟩
  have printed := congrArg Outcome.output run.preload_eq
  rw [entries, isFormat, untagged] at printed
  exact printed

/-- No component is found in JSON, nor where a pattern that was made from a URI ends like the label
of a component. -/
theorem preload_misses_generated_components :
    MissesHome "m.json" "home" ∧ MissesHome "m.ts" "{component}:" := by
  constructor
  · apply missesHome_of_checks .json (by decide +kernel) (by decide +kernel) (by decide +kernel)
      (by decide +kernel)
    have nothing : Manifest.componentsIn (Manifest.render .json [homeEntry "home"]) = [] := by
      rw [Manifest.render, Manifest.jsonText, Manifest.componentsIn, Json.Value.prettyText,
        String.toList_append, String.toList_ofList]
      decide +kernel
    rw [nothing]
    rfl
  · apply missesHome_of_checks .module (by decide +kernel) (by decide +kernel) (by decide +kernel)
      (by decide +kernel)
    have other : Manifest.componentsIn
        (Manifest.render .module [homeEntry "{component}:"]) = [", component: "] := by
      rw [Manifest.render, Manifest.moduleText, Manifest.componentsIn, String.toList_ofList]
      decide +kernel
    rw [other]
    decide +kernel

end Command

end PageRoutes
