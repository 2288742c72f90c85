import PageRoutes.Route.Basic
/-!
Chains of strategies that find the component of a route. The first strategy that finds one wins. Two
strategies can be put together into one that tries the second where the first finds nothing.
-/

set_option autoImplicit false

namespace PageRoutes

inductive Strategy where
  | leaf (name : String) (find : Route → Option String)
  | orElse (first second : Strategy)

namespace Strategy

def name : Strategy → String
  | .leaf name _ => name
  | .orElse _ _ => "or-else"

def find? : Strategy → Route → Option String
  | .leaf _ find, route => find route
  | .orElse first second, route =>
      match first.find? route with
      | some component => some component
      | none => second.find? route

end Strategy

structure StrategyChain where
  strategies : List Strategy

namespace StrategyChain

def empty : StrategyChain :=
  ⟨[]⟩

def push (chain : StrategyChain) (strategy : Strategy) : StrategyChain :=
  ⟨chain.strategies ++ [strategy]⟩

/-- The chain with a strategy at a position, or behind all others if the chain is not that long. -/
def insert (chain : StrategyChain) (position : Nat) (strategy : Strategy) : StrategyChain :=
  ⟨chain.strategies.take position ++ strategy :: chain.strategies.drop position⟩

def names (chain : StrategyChain) : List String :=
  chain.strategies.map (·.name)

def resolve? (chain : StrategyChain) (route : Route) : Option String :=
  chain.strategies.findSome? (·.find? route)

end StrategyChain

end PageRoutes
