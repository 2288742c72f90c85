import PageRoutes.Proofs.Command.Preloaded
import PageRoutes.Proofs.FileTree.Kept
/-!
What a run that generates a manifest does to the files. Everything it needs is read before the
manifest is written, so the run either writes that one file or changes none. It may leave directories
behind that were made for a file that could not be written then.
-/

set_option autoImplicit false

namespace PageRoutes.Command

def outputPath (tree : FileTree) (options : GenerateOptions) (settings : Settings) : FilePath :=
  (projectRoot tree options.project).resolve (options.path.getD settings.manifestPath)

def outputText (tree : FileTree) (options : GenerateOptions) (settings : Settings)
    (routes : List Route) : String :=
  Manifest.render (.ofPath (outputPath tree options settings))
    (entriesOf tree (projectRoot tree options.project) settings routes)

section

variable (tree : FileTree) (environment : Environment) (options : GenerateOptions)

def settingsOf : Except Failure Settings :=
  loadSettings tree environment (projectRoot tree options.project) options.config

def routesOf : Except Failure (List Route) :=
  loadRoutes tree ((projectRoot tree options.project).resolve (options.routes.getD routesFile))

theorem generate_of_settings_error {failure : Failure}
    (unread : settingsOf tree environment options = .error failure) :
    generate tree environment options = .ofFailure tree failure := by
  rw [settingsOf] at unread
  simp only [generate, unread]

theorem generate_of_disabled {settings : Settings}
    (configured : settingsOf tree environment options = .ok settings)
    (disabled : settings.enabled = false) :
    generate tree environment options = ⟨"", tree, none⟩ := by
  rw [settingsOf] at configured
  simp only [generate, configured, disabled]
  rfl

theorem generate_of_routes_error {settings : Settings} {failure : Failure}
    (configured : settingsOf tree environment options = .ok settings)
    (enabled : settings.enabled = true) (unread : routesOf tree options = .error failure) :
    generate tree environment options = .ofFailure tree failure := by
  rw [settingsOf] at configured
  rw [routesOf] at unread
  simp only [generate, configured, enabled, unread]
  rfl

/-- With a configuration and routes, a run does to the files what writing its text does. -/
theorem generate_of_routes {settings : Settings} {routes : List Route}
    (configured : settingsOf tree environment options = .ok settings)
    (enabled : settings.enabled = true) (listed : routesOf tree options = .ok routes) :
    let change := tree.writeNested (outputPath tree options settings)
      (outputText tree options settings routes)
    (generate tree environment options).tree = change.tree ∧
      (generate tree environment options).failure = change.fault.map .file := by
  rw [settingsOf] at configured
  rw [routesOf] at listed
  cases change : tree.writeNested (outputPath tree options settings)
      (outputText tree options settings routes) with
  | mk after fault =>
      have written : Manifest.write tree
          ((projectRoot tree options.project).resolve (options.path.getD settings.manifestPath))
          (.ofPath
            ((projectRoot tree options.project).resolve
              (options.path.getD settings.manifestPath)))
          (Manifest.compile
            (.standard tree (layoutOf tree (projectRoot tree options.project) settings))
            settings.routes routes) = ⟨after, fault⟩ := change
      simp only [generate, configured, enabled, listed, written, not_true_eq_false, if_false]
      cases fault <;> exact ⟨rfl, rfl⟩

/-- The files that a run leaves behind, and the failure it ends with. Nothing here depends on what is
printed. -/
def effectOf : FileTree × Option Failure :=
  match settingsOf tree environment options with
  | .error failure => (tree, some failure)
  | .ok settings =>
      if settings.enabled = false then (tree, none)
      else
        match routesOf tree options with
        | .error failure => (tree, some failure)
        | .ok routes =>
            let change := tree.writeNested (outputPath tree options settings)
              (outputText tree options settings routes)
            (change.tree, change.fault.map .file)

theorem generate_effect :
    (generate tree environment options).tree = (effectOf tree environment options).1 ∧
      (generate tree environment options).failure = (effectOf tree environment options).2 := by
  fun_cases effectOf tree environment options with
  | case1 failure unread =>
      rw [generate_of_settings_error tree environment options unread]
      exact ⟨rfl, rfl⟩
  | case2 settings configured disabled =>
      rw [generate_of_disabled tree environment options configured disabled]
      exact ⟨rfl, rfl⟩
  | case3 settings configured enabled failure unread =>
      have isEnabled := eq_true_of_ne_false enabled
      rw [generate_of_routes_error tree environment options configured isEnabled unread]
      exact ⟨rfl, rfl⟩
  | case4 settings configured enabled routes listed change =>
      have isEnabled := eq_true_of_ne_false enabled
      exact generate_of_routes tree environment options configured isEnabled listed

/-- A run that gives up changes no file, wherever it does. -/
theorem sameFiles_of_gaveUp (gaveUp : (effectOf tree environment options).2 ≠ none) :
    tree.SameFiles (effectOf tree environment options).1 := by
  fun_cases effectOf tree environment options with
  | case1 failure unread => exact fun _ => rfl
  | case2 settings configured disabled => exact fun _ => rfl
  | case3 settings configured enabled failure unread => exact fun _ => rfl
  | case4 settings configured enabled routes listed change =>
      rcases tree.writeNested_cases (outputPath tree options settings)
          (outputText tree options settings routes) with ⟨fault, -, same⟩ | ⟨done, -⟩
      · exact same
      · simp [effectOf, configured, enabled, listed, done] at gaveUp

/-- A run that succeeds without being switched off writes its text and nothing else. -/
theorem onlyWrites_of_succeeded (succeeded : (effectOf tree environment options).2 = none) :
    ∃ settings, settingsOf tree environment options = .ok settings ∧
      (settings.enabled = true →
        ∃ routes, routesOf tree options = .ok routes ∧
          tree.OnlyWrites (effectOf tree environment options).1
            (outputPath tree options settings) (outputText tree options settings routes)) := by
  cases configured : settingsOf tree environment options with
  | error failure => simp [effectOf, configured] at succeeded
  | ok settings =>
      refine ⟨settings, rfl, fun enabled => ?_⟩
      cases listed : routesOf tree options with
      | error failure => simp [effectOf, configured, enabled, listed] at succeeded
      | ok routes =>
          refine ⟨routes, rfl, ?_⟩
          simp only [effectOf, configured, enabled, listed, Bool.true_eq_false, if_false,
            Option.map_eq_none_iff] at succeeded ⊢
          rcases tree.writeNested_cases (outputPath tree options settings)
              (outputText tree options settings routes) with ⟨fault, faulty, -⟩ | ⟨-, writes⟩
          · rw [faulty] at succeeded
            cases succeeded
          · exact writes

/-- What is printed about a manifest has no influence on the files. -/
theorem generate_verbose (verbose : Bool) :
    (generate tree environment { options with verbose }).tree =
        (generate tree environment options).tree ∧
      (generate tree environment { options with verbose }).failure =
        (generate tree environment options).failure := by
  obtain ⟨files, failure⟩ := generate_effect tree environment options
  obtain ⟨otherFiles, otherFailure⟩ := generate_effect tree environment { options with verbose }
  exact ⟨otherFiles.trans files.symm, otherFailure.trans failure.symm⟩

end

/-- A run writes one file or none. If it gives up, or if the configuration switches it off, all files
stay what they were; if it succeeds, the file to which its output path leads holds the manifest of
the entries that were made from the files before, and every other file stays what it was. -/
structure TouchesOneFileOrNone (tree : FileTree) (environment : Environment)
    (options : GenerateOptions) (outcome : Outcome) : Prop where
  gaveUp : outcome.failure ≠ none → tree.SameFiles outcome.tree
  disabled : ∀ settings, settingsOf tree environment options = .ok settings →
    settings.enabled = false → outcome = ⟨"", tree, none⟩
  succeeded : outcome.failure = none →
    ∃ settings, settingsOf tree environment options = .ok settings ∧
      (settings.enabled = true →
        ∃ routes, routesOf tree options = .ok routes ∧
          outcome.tree.readText (outputPath tree options settings) =
            .ok (outputText tree options settings routes) ∧
          tree.OnlyWrites outcome.tree (outputPath tree options settings)
            (outputText tree options settings routes))

/-- Generating a manifest writes one file or none, and being verbose makes no difference to files and
failures. -/
theorem generate_touches_one_file_or_none (tree : FileTree) (environment : Environment)
    (options : GenerateOptions) :
    TouchesOneFileOrNone tree environment options (generate tree environment options) ∧
      ∀ verbose : Bool,
        (generate tree environment { options with verbose }).tree =
            (generate tree environment options).tree ∧
          (generate tree environment { options with verbose }).failure =
            (generate tree environment options).failure := by
  obtain ⟨files, failure⟩ := generate_effect tree environment options
  refine ⟨⟨?_, fun settings => generate_of_disabled tree environment options, ?_⟩,
    generate_verbose tree environment options⟩
  · intro gaveUp
    rw [files]
    exact sameFiles_of_gaveUp tree environment options (failure ▸ gaveUp)
  · intro succeeded
    obtain ⟨settings, configured, written⟩ :=
      onlyWrites_of_succeeded tree environment options (failure.symm.trans succeeded)
    refine ⟨settings, configured, fun enabled => ?_⟩
    obtain ⟨routes, listed, writes⟩ := written enabled
    rw [← files] at writes
    exact ⟨routes, listed, writes.readText, writes⟩

def ontoDirectory : GenerateOptions :=
  { usualOptions with path := some ⟨"public"⟩ }

theorem entriesOf_home : entriesOf (homeProject "m.ts" "home") ⟨"/"⟩ (homeSettings "m.ts")
    (homeRoutes "m.ts" "home") = [homeEntry "home"] := by
  decide +kernel

/-- The manifest of a project is written to its file, and to no file where a directory is in the
way. -/
theorem generate_writes_home :
    (homeProject "m.ts" "home").OnlyWrites
        (generate (homeProject "m.ts" "home") noVariables usualOptions).tree ⟨"/m.ts"⟩
        (Manifest.render .module [homeEntry "home"]) ∧
      (generate (homeProject "m.ts" "home") noVariables ontoDirectory).failure =
        some (.file .isADirectory) ∧
      (homeProject "m.ts" "home").SameFiles
        (generate (homeProject "m.ts" "home") noVariables ontoDirectory).tree := by
  have gaveUp : (generate (homeProject "m.ts" "home") noVariables ontoDirectory).failure =
      some (.file .isADirectory) := by decide +kernel
  refine ⟨?_, gaveUp, ?_⟩
  · have configuredHome : settingsOf (homeProject "m.ts" "home") noVariables usualOptions =
        .ok (homeSettings "m.ts") := by decide +kernel
    obtain ⟨settings, configured, written⟩ :=
      (generate_touches_one_file_or_none (homeProject "m.ts" "home") noVariables
        usualOptions).1.succeeded (by decide +kernel)
    obtain rfl : homeSettings "m.ts" = settings :=
      Except.ok.inj (configuredHome.symm.trans configured)
    obtain ⟨routes, listed, -, writes⟩ := written rfl
    have isHome : homeRoutes "m.ts" "home" = routes := congrArg (·.toOption.getD []) listed
    have isPath : outputPath (homeProject "m.ts" "home") usualOptions (homeSettings "m.ts") =
        ⟨"/m.ts"⟩ := by decide +kernel
    have isText : outputText (homeProject "m.ts" "home") usualOptions (homeSettings "m.ts")
        routes = Manifest.render .module [homeEntry "home"] := by
      rw [outputText, isPath, ← isHome]
      exact congrArg₂ Manifest.render (by decide +kernel) entriesOf_home
    rw [isPath, isText] at writes
    exact writes
  · exact (generate_touches_one_file_or_none _ _ _).1.gaveUp (by simp [gaveUp])

end PageRoutes.Command
