import PageRoutes.Manifest.Coverage
import PageRoutes.Proofs.Distinct
/-!
The report on routes against the routes themselves and against the manifest. Routes that are not
admitted are told by their URIs, which loses none and repeats none because routes are admitted by
nothing else. The report and the manifest are made in two passes that choose the same routes.
-/

set_option autoImplicit false

namespace PageRoutes.Coverage

open Manifest

variable (chain : StrategyChain) (filter : UriFilter) (routes : List Route)

/-! ### What the report holds -/

def found (admitted : List Route) : List (String × String) :=
  admitted.filterMap fun route =>
    (chain.resolve? route).map fun component => (route.uri, component)

def silent (admitted : List Route) : List (String × Omission) :=
  (admitted.filter fun route => (chain.resolve? route).isNone).map fun route =>
    (route.uri, Omission.ofRoute route)

def rejected (candidates : List Route) : List (String × Omission) :=
  (candidates.filter fun route => !filter.admits route.uri).map fun route =>
    (route.uri, Omission.filteredOut)

theorem foldl_add (admitted : List Route) (report : Coverage) :
    admitted.foldl (add chain) report =
      ⟨report.included ++ found chain admitted, report.skipped ++ silent chain admitted⟩ := by
  induction admitted generalizing report with
  | nil => simp [found, silent]
  | cons route admitted ih =>
      rw [List.foldl_cons, ih]
      cases resolved : chain.resolve? route with
      | none => simp [add, found, silent, resolved]
      | some component => simp [add, found, silent, resolved]

/-- Among the URIs of admitted routes there is that of a candidate exactly if the candidate itself is
admitted. -/
theorem any_uri_apply {candidates : List Route} {route : Route} (member : route ∈ candidates) :
    (filter.apply candidates).any (·.uri == route.uri) = filter.admits route.uri := by
  apply Bool.eq_iff_iff.mpr
  constructor
  · intro present
    obtain ⟨other, inAdmitted, same⟩ := List.any_eq_true.mp present
    have admitted : filter.admits other.uri = true := (List.mem_filter.mp inAdmitted).2
    rwa [eq_of_beq same] at admitted
  · intro admitted
    apply List.any_eq_true.mpr
    exact ⟨route, List.mem_filter.mpr ⟨member, admitted⟩, beq_self_eq_true _⟩

theorem ofRoutes_eq :
    ofRoutes chain filter routes =
      ⟨found chain (filter.apply (candidates routes)),
        silent chain (filter.apply (candidates routes)) ++ rejected filter (candidates routes)⟩ := by
  have excluded : ((candidates routes).filter fun route =>
      !(filter.apply (candidates routes)).any (·.uri == route.uri)) =
        (candidates routes).filter fun route => !filter.admits route.uri := by
    apply List.filter_congr
    intro route member
    rw [any_uri_apply filter member]
  simp only [ofRoutes, foldl_add, excluded, List.nil_append, rejected]

/-- A pass that leaves out what has no component goes through the other routes one by one. -/
theorem filterMap_resolve? {α : Type} (make : Route → String → α) (admitted : List Route) :
    (admitted.filterMap fun route => (chain.resolve? route).map (make route)) =
      (admitted.filter fun route => (chain.resolve? route).isSome).map fun route =>
        make route ((chain.resolve? route).getD "") := by
  induction admitted with
  | nil => rfl
  | cons route admitted ih =>
      cases resolved : chain.resolve? route with
      | none => simp [resolved, ih]
      | some component => simp [resolved, ih]

theorem ofRoute_ne_filteredOut (route : Route) : Omission.ofRoute route ≠ .filteredOut := by
  unfold Omission.ofRoute
  cases route.action <;> simp

/-- The report shows every candidate once. Those that the filter rejects come last and in order, and no
other is said to be filtered out; of the others those with a component are included. -/
theorem report_partitions_candidates (chain : StrategyChain) (filter : UriFilter)
    (routes : List Route) :
    ((ofRoutes chain filter routes).included.map Prod.fst ++
        (ofRoutes chain filter routes).skipped.map Prod.fst).Perm
          ((candidates routes).map (·.uri)) ∧
      (ofRoutes chain filter routes).included = found chain (filter.apply (candidates routes)) ∧
      (ofRoutes chain filter routes).skipped =
        silent chain (filter.apply (candidates routes)) ++ rejected filter (candidates routes) ∧
      (ofRoutes chain filter routes).skipped.filter (·.2 = .filteredOut) =
        rejected filter (candidates routes) := by
  rw [ofRoutes_eq]
  refine ⟨?_, rfl, rfl, ?_⟩
  · have bySilence : (((filter.apply (candidates routes)).filter fun route =>
          (chain.resolve? route).isSome) ++
        (filter.apply (candidates routes)).filter fun route =>
          (chain.resolve? route).isNone).Perm (filter.apply (candidates routes)) := by
      have partitioned := List.filter_append_perm (fun route => (chain.resolve? route).isSome)
        (filter.apply (candidates routes))
      simpa only [Option.not_isSome] using partitioned
    have byFilter : (filter.apply (candidates routes) ++
        (candidates routes).filter fun route => !filter.admits route.uri).Perm
          (candidates routes) :=
      List.filter_append_perm _ _
    have all := ((bySilence.append_right _).trans byFilter).map (·.uri)
    simpa [found, filterMap_resolve?, silent, rejected, Function.comp_def] using all
  · have silentKept : (silent chain (filter.apply (candidates routes))).filter
        (·.2 = .filteredOut) = [] := by
      apply List.filter_eq_nil_iff.mpr
      intro omitted member
      obtain ⟨route, -, rfl⟩ := List.mem_map.mp member
      simpa using ofRoute_ne_filteredOut route
    have rejectedKept : (rejected filter (candidates routes)).filter (·.2 = .filteredOut) =
        rejected filter (candidates routes) := by
      apply List.filter_eq_self.mpr
      intro omitted member
      obtain ⟨route, -, rfl⟩ := List.mem_map.mp member
      rfl
    rw [List.filter_append, silentKept, rejectedKept, List.nil_append]

/-! ### Report and manifest side by side -/

def shown : List Route :=
  (filter.apply (candidates routes)).filter fun route => (chain.resolve? route).isSome

structure Describes (entry : Entry) (included : String × String) (route : Route) : Prop where
  uri : included.1 = route.uri
  resolved : chain.resolve? route = some included.2
  component : entry.component = included.2
  pattern : entry.pattern = Uri.pattern included.1
  parameters : entry.parameters = Uri.parameters included.1
  middlewareOnce : entry.middleware.Nodup
  middlewareSame : ∀ text,
    text ∈ entry.middleware ↔ text ∈ route.middlewareGroups ++ route.middleware
  middlewareOrder : entry.middleware.Pairwise fun first second =>
    (route.middlewareGroups ++ route.middleware).idxOf first <
      (route.middlewareGroups ++ route.middleware).idxOf second

theorem describes_ofRoute {route : Route} {component : String}
    (resolved : chain.resolve? route = some component) :
    Describes chain (Entry.ofRoute route component) (route.uri, component) route where
  uri := rfl
  resolved := resolved
  component := rfl
  pattern := rfl
  parameters := rfl
  middlewareOnce := Distinct.nodup_eraseDups _
  middlewareSame := fun _ => List.mem_eraseDups
  middlewareOrder := Distinct.pairwise_idxOf_eraseDups _

/-- The manifest and the report show the same routes in the same order, and say the same of each. -/
theorem report_and_manifest_agree (chain : StrategyChain) (filter : UriFilter)
    (routes : List Route) :
    (compile chain filter routes).length = (shown chain filter routes).length ∧
      (ofRoutes chain filter routes).included.length = (shown chain filter routes).length ∧
      ∀ position : Fin (shown chain filter routes).length, ∃ entry pair,
        (compile chain filter routes)[position.val]? = some entry ∧
          (ofRoutes chain filter routes).included[position.val]? = some pair ∧
          Describes chain entry pair (shown chain filter routes)[position] := by
  have entries : compile chain filter routes = (shown chain filter routes).map fun route =>
      Entry.ofRoute route ((chain.resolve? route).getD "") :=
    filterMap_resolve? chain Entry.ofRoute _
  have included : (ofRoutes chain filter routes).included =
      (shown chain filter routes).map fun route =>
        (route.uri, (chain.resolve? route).getD "") := by
    rw [ofRoutes_eq]
    exact filterMap_resolve? chain (fun route component => (route.uri, component)) _
  rw [entries, included]
  refine ⟨List.length_map _, List.length_map _, ?_⟩
  intro position
  have member : (shown chain filter routes)[position] ∈ shown chain filter routes :=
    List.getElem_mem _
  have here : (shown chain filter routes)[position.val]? =
      some (shown chain filter routes)[position] :=
    List.getElem?_eq_getElem position.isLt
  obtain ⟨component, resolved⟩ := Option.isSome_iff_exists.mp (List.mem_filter.mp member).2
  refine ⟨Entry.ofRoute (shown chain filter routes)[position] component,
    ((shown chain filter routes)[position].uri, component), ?_, ?_,
    describes_ofRoute chain resolved⟩
  · rw [List.getElem?_map, here, Option.map_some, resolved, Option.getD_some]
  · rw [List.getElem?_map, here, Option.map_some, resolved, Option.getD_some]

end PageRoutes.Coverage
