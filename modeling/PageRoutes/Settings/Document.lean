import PageRoutes.Json.Shape
import PageRoutes.Settings.Basic
/-!
Configurations as JSON. Every key may be left out; a key of a nested record that is given then has
the default of that record, not the default of the whole.
-/

set_option autoImplicit false

namespace PageRoutes

open Json

def readPath : Reading FilePath :=
  fun depth tree => (readString depth tree).map FilePath.mk

def readInt64 : Reading Int64 :=
  fun depth tree => (readInteger minInt64 maxInt64 depth tree).map Int64.ofInt

namespace UriFilter

def fields : List (RecordField UriFilter) :=
  [ .of "include" false (readList readString) fun filter included => { filter with included },
    .of "exclude" false (readList readString) fun filter excluded => { filter with excluded } ]

def read : Reading UriFilter :=
  readRecord fields default

def toValue (filter : UriFilter) : Value :=
  .obj [("include", .strings filter.included), ("exclude", .strings filter.excluded)]

end UriFilter

namespace ResolutionSettings

def fields : List (RecordField ResolutionSettings) :=
  [ .of "controller_paths" false (readList readPath) fun settings controllerPaths =>
      { settings with controllerPaths } ]

def read : Reading ResolutionSettings :=
  readRecord fields default

def toValue (settings : ResolutionSettings) : Value :=
  .obj [("controller_paths", .strings (settings.controllerPaths.map (·.text)))]

end ResolutionSettings

namespace PreflightSettings

def fields : List (RecordField PreflightSettings) :=
  [ .of "enabled" false readBool fun settings enabled => { settings with enabled },
    .of "guards" false (readList readString) fun settings guards => { settings with guards },
    .of "password_timeout" false readInt64 fun settings passwordTimeout =>
      { settings with passwordTimeout } ]

def read : Reading PreflightSettings :=
  readRecord fields default

def toValue (settings : PreflightSettings) : Value :=
  .obj
    [ ("enabled", .bool settings.enabled),
      ("guards", .strings settings.guards),
      ("password_timeout", .num (.int settings.passwordTimeout.toInt)) ]

end PreflightSettings

namespace Settings

def fields : List (RecordField Settings) :=
  [ .of "enabled" false readBool fun settings enabled => { settings with enabled },
    .of "manifest_path" false readPath fun settings manifestPath => { settings with manifestPath },
    .of "routes" false UriFilter.read fun settings routes => { settings with routes },
    .of "resolution" false ResolutionSettings.read fun settings resolution =>
      { settings with resolution },
    .of "preflight" false PreflightSettings.read fun settings preflight =>
      { settings with preflight },
    .of "pages_directory" false readString fun settings pagesDirectory =>
      { settings with pagesDirectory },
    .of "build_path" false readString fun settings buildPath => { settings with buildPath },
    .of "public_dir" false readPath fun settings publicDir => { settings with publicDir },
    .of "app_dir" false readPath fun settings appDir => { settings with appDir },
    .of "asset_url" false readString fun settings assetUrl => { settings with assetUrl } ]

def read : Reading Settings :=
  readRecord fields default

def toValue (settings : Settings) : Value :=
  .obj
    [ ("enabled", .bool settings.enabled),
      ("manifest_path", .str settings.manifestPath.text),
      ("routes", settings.routes.toValue),
      ("resolution", settings.resolution.toValue),
      ("preflight", settings.preflight.toValue),
      ("pages_directory", .str settings.pagesDirectory),
      ("build_path", .str settings.buildPath),
      ("public_dir", .str settings.publicDir.text),
      ("app_dir", .str settings.appDir.text),
      ("asset_url", .str settings.assetUrl) ]

def ofText (text : String) : Except Fault Settings :=
  (Document.ofText text).read read

end Settings

end PageRoutes
