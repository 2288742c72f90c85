import PageRoutes.Proofs.Json.Edits
import PageRoutes.Proofs.Json.Printed
import PageRoutes.Settings.Load
/-!
Configurations are read back from their JSON. Where keys are left out of it, whether of the whole or
of a nested record, each of them has its own default, and all others keep their values.
-/

set_option autoImplicit false

namespace PageRoutes

open Json

/-! ### Parts of a configuration -/

def UriFilter.keeping (kept : String → Bool) (filter : UriFilter) : UriFilter where
  included := if kept "include" then filter.included else default.included
  excluded := if kept "exclude" then filter.excluded else default.excluded

def ResolutionSettings.keeping (kept : String → Bool) (settings : ResolutionSettings) :
    ResolutionSettings where
  controllerPaths :=
    if kept "controller_paths" then settings.controllerPaths else default.controllerPaths

def PreflightSettings.keeping (kept : String → Bool) (settings : PreflightSettings) :
    PreflightSettings where
  enabled := if kept "enabled" then settings.enabled else default.enabled
  guards := if kept "guards" then settings.guards else default.guards
  passwordTimeout :=
    if kept "password_timeout" then settings.passwordTimeout else default.passwordTimeout

namespace Settings

def keeping (kept : String → Bool) (settings : Settings) : Settings where
  enabled := if kept "enabled" then settings.enabled else default.enabled
  manifestPath := if kept "manifest_path" then settings.manifestPath else default.manifestPath
  routes := if kept "routes" then settings.routes else default.routes
  resolution := if kept "resolution" then settings.resolution else default.resolution
  preflight := if kept "preflight" then settings.preflight else default.preflight
  pagesDirectory :=
    if kept "pages_directory" then settings.pagesDirectory else default.pagesDirectory
  buildPath := if kept "build_path" then settings.buildPath else default.buildPath
  publicDir := if kept "public_dir" then settings.publicDir else default.publicDir
  appDir := if kept "app_dir" then settings.appDir else default.appDir
  assetUrl := if kept "asset_url" then settings.assetUrl else default.assetUrl

def keepingNested (kept : List String → Bool) (settings : Settings) : Settings :=
  { settings with
    routes := settings.routes.keeping fun key => kept ["routes", key]
    resolution := settings.resolution.keeping fun key => kept ["resolution", key]
    preflight := settings.preflight.keeping fun key => kept ["preflight", key] }

def keepingPaths (kept : List String → Bool) (settings : Settings) : Settings :=
  (settings.keepingNested kept).keeping fun key => kept [key]

end Settings

/-! ### Fields -/

theorem readPath_of_written {depth : Nat} {tree : Tree} {path : FilePath}
    (written : tree.written depth = .ok (.str path.text)) : readPath depth tree = .ok path := by
  rw [readPath, readString_of_written written]
  rfl

theorem readInt64_of_written {depth : Nat} {tree : Tree} {value : Int64}
    (written : tree.written depth = .ok (.num (.int value.toInt))) :
    readInt64 depth tree = .ok value := by
  have fits : minInt64 ≤ value.toInt ∧ value.toInt ≤ maxInt64 :=
    ⟨value.le_toInt, Int.le_sub_one_of_lt value.toInt_lt⟩
  rw [readInt64, readInteger_of_written fits written, Except.map, Int64.ofInt_toInt]

theorem readPaths_of_written {depth : Nat} {tree : Tree} {paths : List FilePath}
    (written : tree.written depth = .ok (.strings (paths.map (·.text)))) :
    readList readPath depth tree = .ok paths := by
  rw [Value.strings, List.map_map] at written
  exact readList_of_written readPath_of_written written

/-! ### Records -/

section

variable {depth : Nat} {kept : List String → Bool}

theorem UriFilter.readsParts (filter : UriFilter) :
    ReadsParts fields depth kept filter.toValue.members (keeping · filter) where
  keys := rfl
  distinct := show ["include", "exclude"].Nodup by decide
  optional := by simp [fields, RecordField.of]
  congr same := by
    simp only [toValue, Value.members, List.map_cons, List.map_nil, List.forall_mem_cons] at same
    simp only [keeping, same]
  store listed tree edited := by
    simp only [toValue, Value.members, List.mem_cons, List.not_mem_nil, or_false,
      Prod.mk.injEq] at listed
    rcases listed with ⟨rfl, rfl⟩ | ⟨rfl, rfl⟩
    all_goals
      have written := edited.written (by simp [Value.strings])
      exact exists_store_eq rfl (readStrings_of_written written) fun given => by simp [keeping]

theorem ResolutionSettings.readsParts (settings : ResolutionSettings) :
    ReadsParts fields depth kept settings.toValue.members (keeping · settings) where
  keys := rfl
  distinct := show ["controller_paths"].Nodup by decide
  optional := by simp [fields, RecordField.of]
  congr same := by
    simp only [toValue, Value.members, List.map_cons, List.map_nil, List.forall_mem_cons] at same
    simp only [keeping, same]
  store listed tree edited := by
    simp only [toValue, Value.members, List.mem_cons, List.not_mem_nil, or_false,
      Prod.mk.injEq] at listed
    obtain ⟨rfl, rfl⟩ := listed
    have written := edited.written (by simp [Value.strings])
    exact exists_store_eq rfl (readPaths_of_written written) fun given => by simp [keeping]

theorem PreflightSettings.readsParts (settings : PreflightSettings) :
    ReadsParts fields depth kept settings.toValue.members (keeping · settings) where
  keys := rfl
  distinct := show ["enabled", "guards", "password_timeout"].Nodup by decide
  optional := by simp [fields, RecordField.of]
  congr same := by
    simp only [toValue, Value.members, List.map_cons, List.map_nil, List.forall_mem_cons] at same
    simp only [keeping, same]
  store listed tree edited := by
    simp only [toValue, Value.members, List.mem_cons, List.not_mem_nil, or_false,
      Prod.mk.injEq] at listed
    rcases listed with ⟨rfl, rfl⟩ | ⟨rfl, rfl⟩ | ⟨rfl, rfl⟩
    · exact exists_store_eq rfl (readBool_of_written (edited.written (by simp)))
        fun given => by simp [keeping]
    · exact exists_store_eq rfl (readStrings_of_written (edited.written (by simp [Value.strings])))
        fun given => by simp [keeping]
    · exact exists_store_eq rfl (readInt64_of_written (edited.written (by simp)))
        fun given => by simp [keeping]

variable {tree : Tree}

theorem UriFilter.read_of_edits {filter : UriFilter}
    (edited : Edits kept (depth + 1) filter.toValue tree) :
    read (depth + 1) tree = .ok (filter.keeping fun key => kept [key]) :=
  filter.readsParts.readRecord_eq edited

theorem ResolutionSettings.read_of_edits {settings : ResolutionSettings}
    (edited : Edits kept (depth + 1) settings.toValue tree) :
    read (depth + 1) tree = .ok (settings.keeping fun key => kept [key]) :=
  settings.readsParts.readRecord_eq edited

theorem PreflightSettings.read_of_edits {settings : PreflightSettings}
    (edited : Edits kept (depth + 1) settings.toValue tree) :
    read (depth + 1) tree = .ok (settings.keeping fun key => kept [key]) :=
  settings.readsParts.readRecord_eq edited

namespace Settings

theorem readsParts (settings : Settings) :
    ReadsParts fields (depth + 1) kept settings.toValue.members
      fun given => (settings.keepingNested kept).keeping given where
  keys := rfl
  distinct := show ["enabled", "manifest_path", "routes", "resolution", "preflight",
    "pages_directory", "build_path", "public_dir", "app_dir", "asset_url"].Nodup by decide
  optional := by simp [fields, RecordField.of]
  congr same := by
    simp only [toValue, Value.members, List.map_cons, List.map_nil, List.forall_mem_cons] at same
    simp only [keeping, same]
  store listed tree edited := by
    simp only [toValue, Value.members, List.mem_cons, List.not_mem_nil, or_false,
      Prod.mk.injEq] at listed
    rcases listed with ⟨rfl, rfl⟩ | ⟨rfl, rfl⟩ | ⟨rfl, rfl⟩ | ⟨rfl, rfl⟩ | ⟨rfl, rfl⟩ | ⟨rfl, rfl⟩ |
      ⟨rfl, rfl⟩ | ⟨rfl, rfl⟩ | ⟨rfl, rfl⟩ | ⟨rfl, rfl⟩
    · exact exists_store_eq rfl (readBool_of_written (edited.written (by simp)))
        fun given => by simp [keeping, keepingNested]
    · exact exists_store_eq rfl (readPath_of_written (edited.written (by simp)))
        fun given => by simp [keeping, keepingNested]
    · exact exists_store_eq rfl (UriFilter.read_of_edits edited)
        fun given => by simp [keeping, keepingNested]
    · exact exists_store_eq rfl (ResolutionSettings.read_of_edits edited)
        fun given => by simp [keeping, keepingNested]
    · exact exists_store_eq rfl (PreflightSettings.read_of_edits edited)
        fun given => by simp [keeping, keepingNested]
    · exact exists_store_eq rfl (readString_of_written (edited.written (by simp)))
        fun given => by simp [keeping, keepingNested]
    · exact exists_store_eq rfl (readString_of_written (edited.written (by simp)))
        fun given => by simp [keeping, keepingNested]
    · exact exists_store_eq rfl (readPath_of_written (edited.written (by simp)))
        fun given => by simp [keeping, keepingNested]
    · exact exists_store_eq rfl (readPath_of_written (edited.written (by simp)))
        fun given => by simp [keeping, keepingNested]
    · exact exists_store_eq rfl (readString_of_written (edited.written (by simp)))
        fun given => by simp [keeping, keepingNested]

theorem read_of_edits {settings : Settings}
    (edited : Edits kept (depth + 2) settings.toValue tree) :
    read (depth + 2) tree = .ok (settings.keepingPaths kept) :=
  settings.readsParts.readRecord_eq edited

end Settings

end

/-! ### Texts -/

namespace Settings

theorem readable_toValue (depth : Nat) (settings : Settings) :
    settings.toValue.Readable (depth + 3) := by
  have texts (texts : List String) : (Value.strings texts).Readable (depth + 1) :=
    readableItems_map .str (fun _ => trivial) texts
  have timeout : IsWord settings.preflight.passwordTimeout.toInt :=
    ⟨settings.preflight.passwordTimeout.le_toInt, by
      have := settings.preflight.passwordTimeout.toInt_lt
      have : (2 ^ 63 : Int) ≤ (maxWord64 : Int) := by decide
      omega⟩
  exact ⟨trivial, trivial, ⟨texts _, texts _, trivial⟩, ⟨texts _, trivial⟩,
    ⟨trivial, texts _, timeout, trivial⟩, trivial, trivial, trivial, trivial, trivial, trivial⟩

theorem ofText_of_edits {settings : Settings} {kept : List String → Bool} {text : String}
    {tree : Tree} (held : Document.ofText text = ⟨tree, false⟩)
    (edited : Edits kept nestingLimit settings.toValue tree) :
    ofText text = .ok (settings.keepingPaths kept) := by
  rw [ofText, held, Document.read_eq_ok_iff]
  exact ⟨read_of_edits edited, rfl⟩

theorem ofText_of_written {settings : Settings} {text : String} {tree : Tree}
    (held : Document.ofText text = ⟨tree, false⟩)
    (written : tree.written nestingLimit = .ok settings.toValue) : ofText text = .ok settings :=
  ofText_of_edits held (edits_of_written settings.toValue written)

theorem ofText_text (settings : Settings) : ofText settings.toValue.text = .ok settings := by
  obtain ⟨tree, held, written⟩ :=
    Value.exists_document_text (settings.readable_toValue 124) isSpacing_empty
  rw [String.append_empty] at held
  exact ofText_of_written held written

theorem ofText_prettyText (settings : Settings) :
    ofText settings.toValue.prettyText = .ok settings := by
  obtain ⟨tree, held, written⟩ :=
    Value.exists_document_prettyText (settings.readable_toValue 124) isSpacing_empty
  rw [String.append_empty] at held
  exact ofText_of_written held written

def SwitchesNothing (environment : Environment) (name : String) : Prop :=
  ∀ text, environment name = some text → readSwitch? text = none

theorem getD_readSwitch?_of_switchesNothing {environment : Environment} {name : String}
    (nothing : SwitchesNothing environment name) (current : Bool) :
    ((environment name).bind readSwitch?).getD current = current := by
  cases found : environment name with
  | none => rfl
  | some text => rw [Option.bind_some, nothing text found, Option.getD_none]

/-- A configuration is read back from its JSON. An edit of it is read as what is kept: a key that is
left out has the default of the record that it belongs to. The environment then switches nothing
but the whole and the preflight checks, each of them only if its variable holds a switch. -/
theorem configuration_is_read_key_by_key {settings : Settings} {kept : List String → Bool}
    {text : String} {tree : Tree} (held : Document.ofText text = ⟨tree, false⟩)
    (edited : Edits kept nestingLimit settings.toValue tree) :
    ofText settings.toValue.text = .ok settings ∧
      ofText settings.toValue.prettyText = .ok settings ∧
      ofText text = .ok (settings.keepingPaths kept) ∧
      ∀ environment : Environment,
        (∀ (files : FileTree) (path : FilePath), files.pathExists path = true →
          files.readText path = .ok text →
          load files environment path =
            .ok ((settings.keepingPaths kept).applySwitches environment)) ∧
        ∃ enabled preflightEnabled,
          (settings.keepingPaths kept).applySwitches environment =
            { settings.keepingPaths kept with
              enabled := enabled
              preflight :=
                { (settings.keepingPaths kept).preflight with enabled := preflightEnabled } } ∧
          (SwitchesNothing environment enabledVariable →
            enabled = (settings.keepingPaths kept).enabled) ∧
          (SwitchesNothing environment preflightVariable →
            preflightEnabled = (settings.keepingPaths kept).preflight.enabled) := by
  have found := ofText_of_edits held edited
  refine ⟨settings.ofText_text, settings.ofText_prettyText, found, fun environment =>
    ⟨fun files path present content => ?_, _, _, rfl,
      fun nothing => getD_readSwitch?_of_switchesNothing nothing _,
      fun nothing => getD_readSwitch?_of_switchesNothing nothing _⟩⟩
  rw [load, ofFile, if_pos present, content]
  simp only [found, Except.map]

theorem partial_configuration_is_read_key_by_key :
    ofText r#"{"also":null,"build_path":"dist","routes":{"include":["admin*"]}}"# =
      .ok { default with routes := ⟨["admin*"], []⟩, buildPath := "dist" } := by
  let settings : Settings :=
    { default with enabled := false, routes := ⟨["admin*"], ["debug*"]⟩, buildPath := "dist" }
  let kept (path : List String) : Bool :=
    [["routes"], ["routes", "include"], ["build_path"]].contains path
  let patterns : Tree := .arr [.str (.ofText "admin*")] none
  let also : Quoted × Tree := (.ofText "also", .null)
  let build : Quoted × Tree := (.ofText "build_path", .str (.ofText "dist"))
  let routes : Quoted × Tree := (.ofText "routes", .obj [(.ofText "include", patterns)] none)
  have held :
      Document.ofText r#"{"also":null,"build_path":"dist","routes":{"include":["admin*"]}}"# =
        ⟨.obj [also, build, routes] none, false⟩ := by cbv
  have routesEdited : Edits (fun path => kept ("routes" :: path)) 126 settings.routes.toValue
      routes.2 :=
    EditsMembers.edits (.keep rfl (Quoted.read_ofText _) (.plain (by simp [Value.strings]) rfl)
      (.leave rfl .done))
  have known : EditsMembers kept 126 settings.toValue.members [routes, build] :=
    .leave rfl (.leave rfl (.keep rfl (Quoted.read_ofText _) routesEdited (.leave rfl (.leave rfl
      (.leave rfl (.keep rfl (Quoted.read_ofText _) (.plain (by simp) rfl) (.leave rfl (.leave rfl
        (.leave rfl .done)))))))))
  have unknown : ∀ member ∈ [also], IsOther settings.toValue.members member := by
    intro member present
    obtain rfl := List.mem_singleton.mp present
    exact ⟨"also", Quoted.read_ofText _, by simp [Settings.toValue, Value.members], rfl⟩
  have edited : Edits kept nestingLimit settings.toValue (.obj [also, build, routes] none) :=
    .object known unknown (List.reverse_perm [routes, build, also])
  exact (configuration_is_read_key_by_key held edited).2.2.1

end Settings

end PageRoutes
