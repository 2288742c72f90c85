import PageRoutes.Component.Strategy
import PageRoutes.Host.Layout
import PageRoutes.Source.FortifyView
import PageRoutes.Source.LineSpan
import PageRoutes.Source.MethodBody
/-!
The four strategies that know the host application, in the order in which they are tried: a
component that the route itself names, the source of a closure, the views registered for the Fortify
package, and the source of a controller. Only the first call that renders is looked at, and
components that are computed are not found.
-/

set_option autoImplicit false

namespace PageRoutes

open Json Source

def FileTree.lineSpan? (tree : FileTree) (path : FilePath) (first last : Nat) : Option String :=
  (tree.readText? path).bind fun source => Source.lineSpan? source first last

def FileTree.methodBody? (tree : FileTree) (path : FilePath) (method : String) : Option String :=
  (tree.readText? path).bind fun source => Source.methodBody? source method

def FileTree.componentOfMethod? (tree : FileTree) (path : FilePath) (method : String) :
    Option String :=
  (tree.methodBody? path method).bind componentIn?

def Layout.registeredView? (layout : Layout) (tree : FileTree) (viewMethod : String) :
    Option String :=
  (tree.readText? layout.fortifyProvider).bind fun source => registeredComponent? source viewMethod

def componentKey : String := "component"

/-- The component that a default value names. An empty text names none, and a value that is no text
names the component by its JSON text. -/
def componentOfDefault? : Value → Option String
  | .null => none
  | .str text => if text.isEmpty then none else some text
  | value => some value.text

def defaultsComponent? (route : Route) : Option String :=
  (route.defaults.lookup componentKey).bind componentOfDefault?

def closureComponent? (tree : FileTree) (layout : Layout) (route : Route) : Option String :=
  match route.action with
  | .closure (some span) =>
      (tree.lineSpan? (layout.resolve span.file) span.startLine span.endLine).bind componentIn?
  | _ => none

def fortifyComponent? (tree : FileTree) (layout : Layout) (route : Route) : Option String :=
  if layout.hasPackage tree fortifyPackage then
    (route.action.identifier?.bind fortifyRegistrar?).bind (layout.registeredView? tree)
  else none

def controllerComponent? (tree : FileTree) (layout : Layout) (route : Route) : Option String :=
  match route.action.target? with
  | none => none
  | some (className, method) =>
      (layout.classes.locate tree className).bind fun path => tree.componentOfMethod? path method

namespace Strategy

def routeDefaults : Strategy :=
  .leaf "route-defaults" defaultsComponent?

def closureSource (tree : FileTree) (layout : Layout) : Strategy :=
  .leaf "closure" (closureComponent? tree layout)

def fortifyViews (tree : FileTree) (layout : Layout) : Strategy :=
  .leaf "fortify" (fortifyComponent? tree layout)

def controllerSource (tree : FileTree) (layout : Layout) : Strategy :=
  .leaf "controller" (controllerComponent? tree layout)

end Strategy

def StrategyChain.standard (tree : FileTree) (layout : Layout) : StrategyChain :=
  ⟨[.routeDefaults, .closureSource tree layout, .fortifyViews tree layout,
    .controllerSource tree layout]⟩

end PageRoutes
