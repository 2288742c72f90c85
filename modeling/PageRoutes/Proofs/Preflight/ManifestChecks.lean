import PageRoutes.Preflight.Registry
import PageRoutes.Proofs.Distinct
import PageRoutes.Proofs.Manifest.Scraping
/-!
Checks made from a manifest compared with checks made from the entries that it was written from. The
middleware of a manifest is taken out of its quotes as it stands there, so the checks see each
backslash of its texts twice: they agree exactly when there is none.
-/

set_option autoImplicit false

namespace PageRoutes.Manifest

/-- An escaped text is longer than the text if anything in it had to be escaped. -/
theorem length_lt_length_flatMap_escape {c : Char} {text : List Char} (special : ¬IsPlain c)
    (member : c ∈ text) : text.length < (text.flatMap escape).length := by
  have atLeast (text : List Char) : text.length ≤ (text.flatMap escape).length := by
    induction text with
    | nil => exact Nat.le_refl 0
    | cons d text ih =>
        have nonempty : 1 ≤ (escape d).length :=
          List.length_pos_iff.mpr (by simpa using flatMap_escape_ne_nil (List.cons_ne_nil d []))
        rw [List.flatMap_cons, List.length_append, List.length_cons]
        omega
  obtain ⟨before, behind, rfl⟩ := List.append_of_mem member
  obtain ⟨mark, escapedAs, -⟩ := escape_of_not_isPlain special
  have beforeLonger := atLeast before
  have behindLonger := atLeast behind
  rw [List.flatMap_append, List.flatMap_cons, escapedAs]
  simp only [List.length_append, List.length_cons, List.length_nil]
  omega

end PageRoutes.Manifest

namespace PageRoutes.Preflight.Registry

open Manifest

variable {registry : Registry} {request : RequestView}

/-- The results belong to the given texts whose names are registered. -/
theorem mem_verdicts_iff {middleware : List String} {text : String} {verdict : Verdict} :
    (text, verdict) ∈ registry.verdicts request middleware ↔
      text ∈ middleware ∧ registry.verdict? request text = some verdict := by
  simp only [verdicts, List.mem_filterMap, List.mem_eraseDups, Option.map_eq_some_iff,
    Prod.mk.injEq]
  constructor
  · rintro ⟨text, member, verdict, found, rfl, rfl⟩
    exact ⟨member, found⟩
  · rintro ⟨member, found⟩
    exact ⟨text, member, verdict, found, rfl, rfl⟩

theorem verdicts_eraseDups (registry : Registry) (request : RequestView)
    (middleware : List String) :
    registry.verdicts request middleware.eraseDups = registry.verdicts request middleware := by
  rw [verdicts, verdicts, Distinct.eraseDups_eraseDups]

theorem verdictsOfManifest_module {entries : List Entry}
    (shows : ∀ entry ∈ entries, entry.ShowsMiddleware) (registry : Registry)
    (request : RequestView) :
    registry.verdictsOfManifest request (render .module entries) =
      registry.verdicts request ((entries.flatMap (·.middleware)).map escaped) := by
  rw [verdictsOfManifest, render, middlewareIn_moduleText shows, verdicts_eraseDups]

def passing (text : String) : Registry :=
  empty.register (splitMiddleware text).1 fun _ _ => .new true

theorem verdict?_passing (text : String) (request : RequestView) :
    (passing text).verdict? request text = some (.new true) := by
  simp [passing, verdict?, evaluator?, register]

/-- If no registry tells some texts from their escaped forms, then nothing in them is escaped. -/
theorem isPlain_of_verdicts_escaped {middleware : List String}
    (agree : ∀ (registry : Registry) (request : RequestView),
      registry.verdicts request (middleware.map escaped) = registry.verdicts request middleware)
    (text : String) (member : text ∈ middleware) : ∀ c ∈ text.toList, IsPlain c := by
  -- By the length of the text: one with something to escape would have to be the escaped form of a
  -- shorter one that has something to escape, too.
  induction measured : text.toList.length using Nat.strongRecOn generalizing text with
  | ind size ih =>
      intro c inText
      by_contra special
      let request : RequestView := ⟨fun _ => none, fun _ => none, 0⟩
      have checked : (text, Verdict.new true) ∈ (passing text).verdicts request middleware :=
        mem_verdicts_iff.mpr ⟨member, verdict?_passing text request⟩
      rw [← agree] at checked
      obtain ⟨shorter, inMiddleware, same⟩ := List.mem_map.mp (mem_verdicts_iff.mp checked).1
      have notPlain : ¬∀ d ∈ shorter.toList, IsPlain d := by
        intro plain
        rw [escaped_of_isPlain plain] at same
        exact special (plain c (same ▸ inText))
      have isShorter : shorter.toList.length < size := by
        obtain ⟨d, inShorter, specialToo⟩ : ∃ d ∈ shorter.toList, ¬IsPlain d := by
          simpa only [not_forall, exists_prop] using notPlain
        rw [← measured, ← same, escaped, String.toList_ofList]
        exact length_lt_length_flatMap_escape specialToo inShorter
      exact notPlain (ih _ isShorter shorter inMiddleware rfl)

/-- Checks made from a module see the middleware of its entries with every backslash written twice.
They agree with the checks made from the entries themselves, for all registries and all requests,
exactly when no middleware text holds a backslash. -/
theorem manifest_checks_agree_iff_no_backslash (entries : List Entry)
    (middleware : ∀ entry ∈ entries, ∀ text ∈ entry.middleware,
      text ≠ "" ∧ ∀ c ∈ text.toList, c ∉ ['\'', '"', '[', ']', '\n', '\r'])
    (noLabel : ∀ entry ∈ entries,
      ∀ text ∈ entry.pattern :: entry.component :: entry.parameters.map (·.name),
        ¬middlewareLabel <:+: text.toList) :
    (∀ (registry : Registry) (request : RequestView),
        registry.verdictsOfManifest request (render .module entries) =
          registry.verdicts request ((entries.flatMap (·.middleware)).map escaped)) ∧
      ((∀ (registry : Registry) (request : RequestView),
          registry.verdictsOfManifest request (render .module entries) =
            registry.verdicts request (entries.flatMap (·.middleware))) ↔
        ∀ entry ∈ entries, ∀ text ∈ entry.middleware, '\\' ∉ text.toList) := by
  have shows (entry : Entry) (member : entry ∈ entries) : entry.ShowsMiddleware := by
    apply Entry.showsMiddleware_of_absent _ (noLabel entry member)
    intro text present
    obtain ⟨nonempty, allowed⟩ := middleware entry member text present
    exact
      { nonempty := nonempty
        noQuote := fun inText => allowed _ inText (by decide)
        noBracket := fun inText => allowed _ inText (by decide) }
  have reading := verdictsOfManifest_module shows
  refine ⟨reading, ?_, ?_⟩
  · intro agree entry member text present inText
    have plain := isPlain_of_verdicts_escaped
      (fun registry request => (reading registry request).symm.trans (agree registry request))
      text (List.mem_flatMap.mpr ⟨entry, member, present⟩)
    exact (plain '\\' inText).1 rfl
  · intro noBackslash registry request
    have plain (entry : Entry) (member : entry ∈ entries) (text : String)
        (present : text ∈ entry.middleware) (c : Char) (inText : c ∈ text.toList) : IsPlain c := by
      have allowed := (middleware entry member text present).2 c inText
      simp only [List.mem_cons, not_or] at allowed
      exact ⟨fun same => noBackslash entry member text present (same ▸ inText), allowed.1,
        allowed.2.2.2.2.1, allowed.2.2.2.2.2.1⟩
    rw [reading, map_escaped_middleware plain]

def subscribersOnly : Entry :=
  ⟨"/reports", "Reports/Index", ["App\\Http\\Middleware\\EnsureSubscribed:pro"], [], none⟩

/-- The check of the class is looked up under a name with doubled backslashes where the manifest is
read, so some registry makes it from the entry and leaves it out there. -/
theorem subscribersOnly_loses_its_check :
    (∀ (registry : Registry) (request : RequestView),
        registry.verdictsOfManifest request (render .module [subscribersOnly]) =
          registry.verdicts request
            ["App\\\\Http\\\\Middleware\\\\EnsureSubscribed:pro"]) ∧
      ¬∀ (registry : Registry) (request : RequestView),
        registry.verdictsOfManifest request (render .module [subscribersOnly]) =
          registry.verdicts request ([subscribersOnly].flatMap (·.middleware)) := by
  have exactly := manifest_checks_agree_iff_no_backslash [subscribersOnly] (by decide +kernel)
    (by decide +kernel)
  have doubled : ([subscribersOnly].flatMap (·.middleware)).map escaped =
      ["App\\\\Http\\\\Middleware\\\\EnsureSubscribed:pro"] := by decide +kernel
  rw [doubled] at exactly
  refine ⟨exactly.1, ?_⟩
  rw [exactly.2]
  decide +kernel

end PageRoutes.Preflight.Registry
