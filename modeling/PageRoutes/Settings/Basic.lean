import PageRoutes.FilePath
import PageRoutes.UriFilter
/-!
The configuration of a project and its values where nothing else is said.
-/

set_option autoImplicit false

namespace PageRoutes

structure ResolutionSettings where
  controllerPaths : List FilePath
deriving DecidableEq, Repr

structure PreflightSettings where
  enabled : Bool
  guards : List String
  /-- For how many seconds a confirmation of the password counts. -/
  passwordTimeout : Int64
deriving DecidableEq, Repr

structure Settings where
  enabled : Bool
  manifestPath : FilePath
  routes : UriFilter
  resolution : ResolutionSettings
  preflight : PreflightSettings
  pagesDirectory : String
  buildPath : String
  publicDir : FilePath
  appDir : FilePath
  /-- What stands in front of the addresses of assets; they start at the root if it is empty. -/
  assetUrl : String
deriving DecidableEq, Repr

def UriFilter.default : UriFilter :=
  ⟨[], []⟩

def ResolutionSettings.default : ResolutionSettings :=
  ⟨[⟨"app/Http/Controllers"⟩]⟩

def PreflightSettings.default : PreflightSettings :=
  ⟨true, ["web"], 10800⟩

/-- The configuration of a project that says nothing. Unlike a filter that is given, the one that is
not leaves the pages of debugging tools out. -/
def Settings.default : Settings where
  enabled := true
  manifestPath := ⟨"resources/js/force10-manifest.ts"⟩
  routes := ⟨[], ["telescope*", "horizon*", "_debugbar*"]⟩
  resolution := ResolutionSettings.default
  preflight := PreflightSettings.default
  pagesDirectory := "resources/js/pages"
  buildPath := "build"
  publicDir := ⟨"public"⟩
  appDir := ⟨"app"⟩
  assetUrl := ""

def Settings.fileName : FilePath :=
  ⟨"force10.json"⟩

end PageRoutes
