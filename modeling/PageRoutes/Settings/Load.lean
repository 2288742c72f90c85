import PageRoutes.Failure
import PageRoutes.Settings.Document
import PageRoutes.Text.Blank
/-!
The configuration of a project: what its file says, or the default if there is no file, and then
what the environment says about switching things on and off.
-/

set_option autoImplicit false

namespace PageRoutes

abbrev Environment := String → Option String

/-- A switch as it is written in the environment, in any case and with blanks around it. -/
def readSwitch? (text : String) : Option Bool :=
  let word := String.ofList ((Text.trimBlanks text.toList).map Char.toLower)
  if word ∈ ["1", "true", "on", "yes"] then some true
  else if word ∈ ["0", "false", "off", "no"] then some false
  else none

namespace Settings

def enabledVariable : String := "FORCE10_ENABLED"

def preflightVariable : String := "FORCE10_PREFLIGHT"

/-- The configuration with the switches of the environment. A variable that holds no switch changes
nothing. -/
def applySwitches (environment : Environment) (settings : Settings) : Settings :=
  let switch := fun name => (environment name).bind readSwitch?
  { settings with
    enabled := (switch enabledVariable).getD settings.enabled
    preflight :=
      { settings.preflight with
        enabled := (switch preflightVariable).getD settings.preflight.enabled } }

/-- The configuration that a file holds; the default if there is no such file. -/
def ofFile (tree : FileTree) (path : FilePath) : Except Failure Settings :=
  if tree.pathExists path then
    match tree.readText path with
    | .error fault => .error (.file fault)
    | .ok text =>
        match ofText text with
        | .error fault => .error (.config path fault)
        | .ok settings => .ok settings
  else .ok default

def load (tree : FileTree) (environment : Environment) (path : FilePath) :
    Except Failure Settings :=
  (ofFile tree path).map (applySwitches environment)

def ofProject (tree : FileTree) (environment : Environment) (root : FilePath) :
    Except Failure Settings :=
  load tree environment (root.join fileName)

end Settings

end PageRoutes
