import PageRoutes.FilePath
import PageRoutes.Text.Pieces
/-!
What the arguments of the command line ask for. Each option may be given once; its value follows it
as an argument of its own or behind an equals sign, and is never empty. A value that is an argument
of its own does not start with a hyphen, unless it is nothing else. The first argument that is
wrong, or that asks for help, decides.
-/

set_option autoImplicit false

namespace PageRoutes.Command

open Text

structure GenerateOptions where
  project : Option FilePath
  routes : Option FilePath
  config : Option FilePath
  path : Option FilePath
  verbose : Bool
deriving DecidableEq, Repr

structure PreloadOptions where
  project : Option FilePath
  config : Option FilePath
deriving DecidableEq, Repr

inductive Task where
  | generate (options : GenerateOptions)
  | preload (options : PreloadOptions)
  | help
  | version
deriving DecidableEq, Repr

inductive ValueOption where
  | project
  | routes
  | config
  | path
deriving DecidableEq, Repr

structure Form where
  valueOptions : List (String × ValueOption)
  takesVerbose : Bool

structure Given where
  values : List (ValueOption × FilePath)
  verbose : Bool

inductive Refusal where
  | usage
  | help
deriving DecidableEq, Repr

def Given.set (given : Given) (option : ValueOption) (value : List Char) :
    Except Refusal Given :=
  if value.isEmpty ∨ (given.values.lookup option).isSome then .error .usage
  else .ok { given with values := (option, ⟨String.ofList value⟩) :: given.values }

def Given.setVerbose (form : Form) (given : Given) : Except Refusal Given :=
  if ¬ form.takesVerbose ∨ given.verbose then .error .usage else .ok { given with verbose := true }

def readShort (form : Form) : List Char → Given → Except Refusal Given
  | [], given => .ok given
  | c :: rest, given =>
      if c = 'h' then .error .help
      else if c = 'v' then do
        let given ← given.setVerbose form
        readShort form rest given
      else .error .usage

def isValue : List Char → Bool
  | '-' :: _ :: _ => false
  | _ => true

def readArguments (form : Form) : List (List Char) → Given → Except Refusal Given
  | [], given => .ok given
  | ['-', '-'] :: rest, given => if rest.isEmpty then .ok given else .error .usage
  | ('-' :: '-' :: long) :: rest, given =>
      match cutAtFirst? '=' long with
      | some (name, value) =>
          match form.valueOptions.lookup (String.ofList name) with
          | some option => do
              let given ← given.set option value
              readArguments form rest given
          | none => .error .usage
      | none =>
          match form.valueOptions.lookup (String.ofList long), rest with
          | some option, value :: rest =>
              if isValue value then do
                let given ← given.set option value
                readArguments form rest given
              else .error .usage
          | some _, [] => .error .usage
          | none, rest =>
              if long = "verbose".toList then do
                let given ← given.setVerbose form
                readArguments form rest given
              else if long = "help".toList then .error .help
              else .error .usage
  | ('-' :: c :: short) :: rest, given => do
      let given ← readShort form (c :: short) given
      readArguments form rest given
  | _ :: _, _ => .error .usage

def Given.none : Given :=
  ⟨[], false⟩

def generateForm : Form :=
  ⟨[("project", .project), ("routes", .routes), ("config", .config), ("path", .path)], true⟩

def preloadForm : Form :=
  ⟨[("project", .project), ("config", .config)], false⟩

def Given.generateOptions (given : Given) : GenerateOptions where
  project := given.values.lookup .project
  routes := given.values.lookup .routes
  config := given.values.lookup .config
  path := given.values.lookup .path
  verbose := given.verbose

def Given.preloadOptions (given : Given) : PreloadOptions where
  project := given.values.lookup .project
  config := given.values.lookup .config

def taskOf? (form : Form) (task : Given → Task) (arguments : List String) : Option Task :=
  match readArguments form (arguments.map String.toList) .none with
  | .ok given => some (task given)
  | .error .help => some .help
  | .error .usage => Option.none

def commandNames : List String :=
  ["generate", "preload", "help"]

def Task.ofArguments? : List String → Option Task
  | [] => none
  | "generate" :: arguments =>
      taskOf? generateForm (fun given => .generate given.generateOptions) arguments
  | "preload" :: arguments =>
      taskOf? preloadForm (fun given => .preload given.preloadOptions) arguments
  | "help" :: arguments =>
      match arguments with
      | [] => some .help
      | [command] => if command ∈ commandNames then some .help else none
      | _ => none
  | "--help" :: _ => some .help
  | "--version" :: _ => some .version
  | argument :: _ =>
      match argument.toList with
      | '-' :: 'V' :: _ => some .version
      | '-' :: 'h' :: _ => some .help
      | _ => none

end PageRoutes.Command
