import PageRoutes.Preload
import PageRoutes.Proofs.Host.Located
import PageRoutes.Proofs.Text.Trimming
/-!
Slashes where addresses and paths are joined. However many of them the configuration and the build
manifest have at such a joint, one is written there; so a directory for the build that is nothing
but slashes leaves no trace, and none leads out of the public directory.
-/

set_option autoImplicit false

namespace PageRoutes

open Text

def slashes (count : Nat) : String :=
  String.ofList (List.replicate count '/')

structure JointSlashes where
  assetUrlEnd : Nat
  buildPathStart : Nat
  buildPathEnd : Nat
  pagesDirectoryEnd : Nat

def Settings.withSlashes (settings : Settings) (extra : JointSlashes) : Settings :=
  { settings with
    assetUrl := settings.assetUrl ++ slashes extra.assetUrlEnd
    buildPath := slashes extra.buildPathStart ++ settings.buildPath ++ slashes extra.buildPathEnd
    pagesDirectory := settings.pagesDirectory ++ slashes extra.pagesDirectoryEnd }

inductive BuildManifest.AddsSlashes : BuildManifest → BuildManifest → Prop
  | nil : AddsSlashes [] []
  | cons {build other : BuildManifest} (source file : String) (count : Nat)
      (rest : AddsSlashes build other) :
      AddsSlashes ((source, file) :: build) ((source, slashes count ++ file) :: other)

/-! ### Trimmed slashes -/

theorem isSlash_of_mem_slashes (count : Nat) : ∀ c ∈ (slashes count).toList, (c == '/') = true := by
  intro c member
  rw [slashes, String.toList_ofList] at member
  exact beq_iff_eq.mpr (List.eq_of_mem_replicate member)

theorem trimEndSlashes_append (text : String) (count : Nat) :
    trimEndSlashes (text ++ slashes count) = trimEndSlashes text := by
  unfold trimEndSlashes
  rw [String.toList_append, trimEndWhile_append (isSlash_of_mem_slashes count)]

theorem trimStartSlashes_append (count : Nat) (text : String) :
    trimStartSlashes (slashes count ++ text) = trimStartSlashes text := by
  unfold trimStartSlashes
  rw [String.toList_append, List.dropWhile_append_of_pos (isSlash_of_mem_slashes count)]

theorem trimSlashes_append (front : Nat) (text : String) (back : Nat) :
    trimStartSlashes (trimEndSlashes (slashes front ++ text ++ slashes back)) =
      trimStartSlashes (trimEndSlashes text) := by
  unfold trimStartSlashes trimEndSlashes
  rw [String.toList_ofList, String.toList_ofList, dropWhile_trimEndWhile, dropWhile_trimEndWhile,
    String.toList_append, String.toList_append,
    trim_append (isSlash_of_mem_slashes front) (isSlash_of_mem_slashes back)]

theorem trimEndSlashes_of_bare {text : String} (bare : text.toList.getLast? ≠ some '/') :
    trimEndSlashes text = text := by
  unfold trimEndSlashes
  rw [trimEndWhile_of_getLast?, String.ofList_toList]
  intro c isLast
  exact beq_eq_false_iff_ne.mpr fun isSlash => bare (isSlash ▸ isLast)

theorem trimStartSlashes_of_bare {text : String} (bare : text.toList.head? ≠ some '/') :
    trimStartSlashes text = text := by
  unfold trimStartSlashes
  rw [dropWhile_of_head?, String.ofList_toList]
  intro c isHead
  exact beq_eq_false_iff_ne.mpr fun isSlash => bare (isSlash ▸ isHead)

theorem isAbsolute_trimStartSlashes (text : String) :
    (⟨trimStartSlashes text⟩ : FilePath).isAbsolute = false := by
  unfold FilePath.isAbsolute trimStartSlashes
  rw [String.toList_ofList, beq_eq_false_iff_ne]
  intro absolute
  have notSlash := head?_dropWhile (· == '/') text.toList '/' absolute
  cases notSlash

theorem FilePath.IsUnder.trans {path directory base : FilePath} (within : path.IsUnder directory)
    (inBase : directory.IsUnder base) : path.IsUnder base :=
  List.IsPrefix.trans inBase within

namespace Preload

variable {preload : Preload} {root : FilePath} {settings : Settings}

theorem ofSettings_withSlashes (root : FilePath) (settings : Settings) (extra : JointSlashes) :
    ofSettings root (settings.withSlashes extra) = ofSettings root settings := by
  simp only [ofSettings, Settings.withSlashes]
  rw [trimSlashes_append, trimEndSlashes_append, trimEndSlashes_append]

/-! ### Addresses -/

theorem href_slashes (preload : Preload) (count : Nat) (file : String) :
    preload.href (slashes count ++ file) = preload.href file := by
  unfold href
  rw [trimStartSlashes_append]

/-- One slash is written at each joint of an address, and an empty directory of the build has none.
-/
theorem href_eq {base segment bare : String} {baseEnd front back start : Nat}
    (isUrl : settings.assetUrl = base ++ slashes baseEnd)
    (isPath : settings.buildPath = slashes front ++ segment ++ slashes back)
    (bareBase : base.toList.getLast? ≠ some '/')
    (bareSegment : segment.toList.head? ≠ some '/' ∧ segment.toList.getLast? ≠ some '/')
    (bareFile : bare.toList.head? ≠ some '/') :
    (ofSettings root settings).href (slashes start ++ bare) =
      base ++ "/" ++ (if segment = "" then "" else segment ++ "/") ++ bare := by
  have url : (ofSettings root settings).assetUrl = base := by
    change trimEndSlashes settings.assetUrl = base
    rw [isUrl, trimEndSlashes_append, trimEndSlashes_of_bare bareBase]
  have path : (ofSettings root settings).buildPath = segment := by
    change trimStartSlashes (trimEndSlashes settings.buildPath) = segment
    rw [isPath, trimSlashes_append, trimEndSlashes_of_bare bareSegment.2,
      trimStartSlashes_of_bare bareSegment.1]
  rw [href_slashes, href, url, path, trimStartSlashes_of_bare bareFile]
  by_cases empty : segment = ""
  · rw [if_pos (String.isEmpty_iff.mpr empty), if_pos empty, String.append_empty]
  · rw [if_neg (mt String.isEmpty_iff.mp empty), if_neg empty]
    simp only [String.append_assoc]

theorem tag_slashes (preload : Preload) (count : Nat) (file : String) :
    preload.tag (slashes count ++ file) = preload.tag file := by
  unfold tag
  rw [href_slashes]

theorem lookup_map_tag {build other : BuildManifest} (adds : build.AddsSlashes other)
    (source : String) :
    (other.lookup source).map preload.tag = (build.lookup source).map preload.tag := by
  induction adds with
  | nil => rfl
  | cons key file count rest ih =>
      -- Slashes are added to files only, so both lookups stop at the same entry.
      rw [List.lookup_cons, List.lookup_cons]
      cases source == key with
      | true => exact congrArg some (tag_slashes preload count file)
      | false => exact ih

theorem fileOf?_map_tag {build other : BuildManifest} (adds : build.AddsSlashes other)
    (component : String) :
    (preload.fileOf? other component).map preload.tag =
      (preload.fileOf? build component).map preload.tag := by
  unfold fileOf?
  rw [List.map_findSome?, List.map_findSome?]
  congr 1
  funext extension
  exact lookup_map_tag adds _

theorem tags_of_addsSlashes {build other : BuildManifest} (adds : build.AddsSlashes other)
    (components : List String) : preload.tags other components = preload.tags build components := by
  unfold tags
  simp only [fileOf?_map_tag adds]

/-! ### Paths -/

theorem isUnder_publicDir {file : FilePath} (relative : file.isAbsolute = false) :
    (((ofSettings root settings).publicDir.join ⟨(ofSettings root settings).buildPath⟩).join
      file).IsUnder (root.resolve settings.publicDir) :=
  (FilePath.isUnder_join _ relative).trans
    (FilePath.isUnder_join _ (isAbsolute_trimStartSlashes _))

/-- Slashes that are added at the joints of the configuration and in front of built files change
neither the tags nor the places of the build manifest. Both places are under the public directory,
and an address has one slash at each joint and no name for a directory of the build that is nothing
but slashes. -/
theorem slashes_at_joints_do_not_count (root : FilePath) (settings : Settings)
    (extra : JointSlashes) {build other : BuildManifest} (adds : build.AddsSlashes other)
    (components : List String) :
    let preload := ofSettings root settings
    let padded := ofSettings root (settings.withSlashes extra)
    padded.tags other components = preload.tags build components ∧
      padded.buildManifestPaths = preload.buildManifestPaths ∧
      (∀ tree, padded.text tree = preload.text tree) ∧
      (∃ first second, preload.buildManifestPaths = [first, second] ∧
        first.IsUnder (root.resolve settings.publicDir) ∧
        second.IsUnder (root.resolve settings.publicDir)) ∧
      ∀ (base segment bare : String) (baseEnd front back start : Nat),
        settings.assetUrl = base ++ slashes baseEnd →
        settings.buildPath = slashes front ++ segment ++ slashes back →
        base.toList.getLast? ≠ some '/' →
        segment.toList.head? ≠ some '/' ∧ segment.toList.getLast? ≠ some '/' →
        bare.toList.head? ≠ some '/' →
          preload.href (slashes start ++ bare) =
            base ++ "/" ++ (if segment = "" then "" else segment ++ "/") ++ bare := by
  intro preload padded
  have same : padded = preload := ofSettings_withSlashes root settings extra
  refine ⟨?_, ?_, ?_, ⟨_, _, rfl, isUnder_publicDir (by decide), isUnder_publicDir (by decide)⟩, ?_⟩
  · rw [same]
    exact tags_of_addsSlashes adds components
  · rw [same]
  · intro tree
    rw [same]
  · intro base segment bare baseEnd front back start isUrl isPath bareBase bareSegment bareFile
    exact href_eq isUrl isPath bareBase bareSegment bareFile

/-- The directory of the build is absolute to look at. -/
theorem slashes_around_build_do_not_count :
    let settings := { Settings.default with assetUrl := "https://cdn.test/" }
    let padded := settings.withSlashes ⟨2, 1, 3, 1⟩
    (ofSettings ⟨"/srv"⟩ padded).tags [("resources/js/pages/a.vue", "//assets/a.js")] ["a"] =
        ["<link rel=\"modulepreload\" href=\"https://cdn.test/build/assets/a.js\">"] ∧
      (ofSettings ⟨"/srv"⟩ padded).buildManifestPaths =
        [⟨"/srv/public/build/.vite/manifest.json"⟩, ⟨"/srv/public/build/manifest.json"⟩] ∧
      (ofSettings ⟨"/srv"⟩ { settings with buildPath := "//" }).href "/assets/a.js" =
        "https://cdn.test/assets/a.js" := by
  intro settings padded
  have adds : BuildManifest.AddsSlashes [("resources/js/pages/a.vue", "assets/a.js")]
      [("resources/js/pages/a.vue", "//assets/a.js")] := .cons _ "assets/a.js" 2 .nil
  obtain ⟨sameTags, samePaths, -, -, -⟩ :=
    slashes_at_joints_do_not_count ⟨"/srv"⟩ settings ⟨2, 1, 3, 1⟩ adds ["a"]
  obtain ⟨-, -, -, -, addresses⟩ := slashes_at_joints_do_not_count ⟨"/srv"⟩
    { settings with buildPath := "//" } ⟨0, 0, 0, 0⟩ .nil []
  refine ⟨sameTags.trans (by decide +kernel), samePaths.trans (by decide +kernel), ?_⟩
  exact addresses "https://cdn.test" "" "assets/a.js" 1 2 0 1 rfl rfl (by decide) (by decide)
    (by decide)

end Preload

end PageRoutes
