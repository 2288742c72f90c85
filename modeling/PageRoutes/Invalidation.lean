import PageRoutes.Text.Pieces
import PageRoutes.Text.Recogniser
/-!
Which pages the client has to forget. A route names them in the parameters of its cache middleware,
as directives between commas.
-/

set_option autoImplicit false

namespace PageRoutes

open Text

def cacheMiddleware : String := "force10.cache"

def invalidationKey : String := "_force10_server"

structure Invalidation where
  patterns : List String
deriving DecidableEq, Repr

namespace Invalidation

def invalidateKeyword : List Char := "invalidate:".toList

def patternOf? (directive : List Char) : Option String :=
  (after? invalidateKeyword directive).map String.ofList

def ofDirectives (directives : List String) : Invalidation :=
  ⟨directives.filterMap fun directive => patternOf? directive.toList⟩

def ofMiddleware? (middleware : String) : Option Invalidation :=
  let (name, parameters) := (cutAtFirst? ':' middleware.toList).getD (middleware.toList, [])
  if name = cacheMiddleware.toList then
    some ⟨((splitOn ',' parameters).filter (!·.isEmpty)).filterMap patternOf?⟩
  else none

/-- What is sent to the client; nothing is sent if there is nothing to forget. -/
def payload? (invalidation : Invalidation) : Option (List String) :=
  if invalidation.patterns.isEmpty then none else some invalidation.patterns

end Invalidation

end PageRoutes
