import PageRoutes.Command.Arguments
import PageRoutes.Component.Standard
import PageRoutes.Manifest.Coverage
import PageRoutes.Manifest.Document
import PageRoutes.Preload
import PageRoutes.Route.Listing
import PageRoutes.Settings.Load
/-!
The commands of the program, as functions from the files, the environment and the options to what is
printed and to the files afterwards.
-/

set_option autoImplicit false

namespace PageRoutes.Command

structure Outcome where
  output : String
  tree : FileTree
  failure : Option Failure

def Outcome.ofFailure (tree : FileTree) (failure : Failure) : Outcome :=
  ⟨"", tree, some failure⟩

def green (text : String) : String :=
  "\x1b[32m" ++ text ++ "\x1b[0m"

def yellow (text : String) : String :=
  "\x1b[33m" ++ text ++ "\x1b[0m"

/-- The root of a project; without an option for it, the working directory. -/
def projectRoot (tree : FileTree) (project : Option FilePath) : FilePath :=
  project.getD ⟨"/" ++ "/".intercalate tree.workingDirectory⟩

def loadSettings (tree : FileTree) (environment : Environment) (root : FilePath)
    (config : Option FilePath) : Except Failure Settings :=
  match config with
  | some path => Settings.load tree environment (root.resolve path)
  | none => Settings.ofProject tree environment root

/-- The layout that a configuration describes. Classes that no namespace leads to are looked up in
the directories of controllers. -/
def layoutOf (tree : FileTree) (root : FilePath) (settings : Settings) : Layout where
  root := root
  appDir := root.resolve settings.appDir
  classes :=
    .chain (.namespaces (Composer.namespaceMap tree root))
      (.controllers (settings.resolution.controllerPaths.map root.resolve))

def loadRoutes (tree : FileTree) (path : FilePath) : Except Failure (List Route) :=
  match tree.readText path with
  | .error fault => .error (.routeList path fault)
  | .ok text =>
      match Route.listOfText text with
      | .error fault => .error (.json fault)
      | .ok routes => .ok routes

def reportText (report : Coverage) : String :=
  let included := report.included.map fun (uri, component) =>
    "  " ++ green "+" ++ " " ++ uri ++ " -> " ++ component ++ "\n"
  let skipped := report.skipped.map fun (uri, reason) =>
    "  " ++ yellow "-" ++ " " ++ uri ++ ": " ++ reason.message ++ "\n"
  green ("Included routes (" ++ toString report.included.length ++ "):") ++ "\n" ++
    String.join included ++
    (if skipped.isEmpty then ""
      else
        "\n" ++ yellow ("Skipped routes (" ++ toString report.skipped.length ++ "):") ++ "\n" ++
          String.join skipped)

def routesFile : FilePath :=
  ⟨"routes.json"⟩

def summaryText (report : Option Coverage) (count : Nat) (path : FilePath) : String :=
  let summary := "Generated " ++ toString count ++ " routes to " ++ path.text
  (match report with
    | some report => reportText report ++ "\n"
    | none => "") ++
    green summary ++ "\n"

/-- Writes the manifest of a project, unless the configuration switches the program off. The report
is made from the files as they are after the manifest was written. -/
def generate (tree : FileTree) (environment : Environment) (options : GenerateOptions) : Outcome :=
  let root := projectRoot tree options.project
  match loadSettings tree environment root options.config with
  | .error failure => .ofFailure tree failure
  | .ok settings =>
      if ¬ settings.enabled then ⟨"", tree, none⟩
      else
        let layout := layoutOf tree root settings
        match loadRoutes tree (root.resolve (options.routes.getD routesFile)) with
        | .error failure => .ofFailure tree failure
        | .ok routes =>
            let entries := Manifest.compile (.standard tree layout) settings.routes routes
            let path := root.resolve (options.path.getD settings.manifestPath)
            match Manifest.write tree path (.ofPath path) entries with
            | ⟨tree, some fault⟩ => .ofFailure tree (.file fault)
            | ⟨tree, none⟩ =>
                let chain := StrategyChain.standard tree layout
                let report :=
                  if options.verbose then some (Coverage.ofRoutes chain settings.routes routes)
                  else none
                ⟨summaryText report entries.length path, tree, none⟩

def preload (tree : FileTree) (environment : Environment) (options : PreloadOptions) : Outcome :=
  let root := projectRoot tree options.project
  match loadSettings tree environment root options.config with
  | .error failure => .ofFailure tree failure
  | .ok settings =>
      let tags := (Preload.ofSettings root settings).text tree
      ⟨if tags.isEmpty then "" else tags ++ "\n", tree, none⟩

def versionText : String := "force10 0.3.0\n"

def helpText : String :=
  "Generate the Force10 route manifest for Inertia applications\n\n" ++
    "Usage: force10 generate [--project DIR] [--routes FILE] [--config FILE] [--path FILE] [-v]\n" ++
    "       force10 preload [--project DIR] [--config FILE]\n" ++
    "       force10 --version\n"

def run? (tree : FileTree) (environment : Environment) (arguments : List String) :
    Option Outcome :=
  (Task.ofArguments? arguments).map fun task =>
    match task with
    | .generate options => generate tree environment options
    | .preload options => preload tree environment options
    | .help => ⟨helpText, tree, none⟩
    | .version => ⟨versionText, tree, none⟩

def exitCode : Option Outcome → Nat
  | none => 2
  | some outcome => if outcome.failure.isSome then 1 else 0

def Outcome.failureLine? (outcome : Outcome) : Option String :=
  outcome.failure.map fun failure => "Error: " ++ failure.message

end PageRoutes.Command
