import PageRoutes.Manifest.Document
import PageRoutes.Proofs.Json.Printed
/-!
Manifests are read back from JSON. A manifest holds no numbers and is five levels deep, so every
manifest is a value that is read back from the text in which it is printed.
-/

set_option autoImplicit false

namespace PageRoutes.Manifest

open Json

/-! ### A manifest is a value that can be read -/

theorem readable_parameterValue (depth : Nat) (parameter : Parameter) :
    (parameterValue parameter).Readable (depth + 1) :=
  ⟨trivial, trivial, trivial⟩

theorem readable_entryValue (depth : Nat) (entry : Entry) :
    (entryValue entry).Readable (depth + 3) := by
  have texts : ReadableItems (depth + 1) (entry.middleware.map .str) :=
    readableItems_map .str (fun _ => trivial) entry.middleware
  have parameters : ReadableItems (depth + 1) (entry.parameters.map parameterValue) :=
    readableItems_map parameterValue (readable_parameterValue depth) entry.parameters
  exact ⟨trivial, trivial, texts, parameters, trivial⟩

theorem readable_toValue (depth : Nat) (entries : List Entry) :
    (toValue entries).Readable (depth + 5) :=
  ⟨readableItems_map entryValue (readable_entryValue depth) entries, trivial⟩

/-! ### The keys in increasing order -/

theorem sortItems_eq_map (items : List Value) : sortItems items = items.map Value.sortKeys := by
  induction items with
  | nil => rfl
  | cons item items ih => rw [sortItems, ih, List.map_cons]

theorem sortKeys_parameterValue (parameter : Parameter) :
    (parameterValue parameter).sortKeys = parameterValue parameter := by
  simp only [parameterValue, Value.sortKeys, sortInMembers, sortMembers, List.foldl_cons,
    List.foldl_nil, insertMember, String.reduceLT, String.reduceEq, if_false]

theorem sortKeys_entryValue (entry : Entry) :
    (entryValue entry).sortKeys =
      .obj
        [ ("component", .str entry.component),
          ("middleware", .arr (entry.middleware.map .str)),
          ("parameters", .arr (entry.parameters.map parameterValue)),
          ("pattern", .str entry.pattern) ] := by
  have texts : (entry.middleware.map Value.str).map Value.sortKeys =
      entry.middleware.map Value.str := by
    rw [List.map_map]
    rfl
  have parameters : (entry.parameters.map parameterValue).map Value.sortKeys =
      entry.parameters.map parameterValue := by
    rw [List.map_map]
    exact List.map_congr_left fun parameter _ => sortKeys_parameterValue parameter
  simp only [entryValue, Value.strings, Value.sortKeys, sortInMembers, sortItems_eq_map, texts,
    parameters, sortMembers, List.foldl_cons, List.foldl_nil, insertMember, String.reduceLT,
    String.reduceEq, if_true, if_false]

/-! ### What a value tells of a manifest -/

theorem parameterValue_inj (left right : Parameter)
    (same : parameterValue left = parameterValue right) : left = right := by
  cases left
  cases right
  simpa [parameterValue] using same

theorem unnamed_eq_of_entryValue_eq {left right : Entry}
    (same : entryValue left = entryValue right) : left.unnamed = right.unnamed := by
  simp only [entryValue, Value.strings, Value.obj.injEq, List.cons.injEq, Prod.mk.injEq, true_and,
    Value.str.injEq, Value.arr.injEq, and_true] at same
  obtain ⟨pattern, component, middleware, parameters⟩ := same
  simp only [Entry.unnamed, Entry.mk.injEq, and_true]
  exact ⟨pattern, component, (List.map_inj_right fun _ _ => Value.str.inj).mp middleware,
    (List.map_inj_right parameterValue_inj).mp parameters⟩

theorem map_unnamed_eq_of_toValue_eq {left right : List Entry}
    (same : toValue left = toValue right) :
    left.map Entry.unnamed = right.map Entry.unnamed := by
  have sameItems : left.map entryValue = right.map entryValue := by
    simpa [toValue] using same
  clear same
  induction left generalizing right with
  | nil =>
      rw [List.map_eq_nil_iff.mp sameItems.symm]
  | cons entry left ih =>
      cases right with
      | nil => cases sameItems
      | cons other right =>
          obtain ⟨sameFirst, sameOthers⟩ := List.cons.inj sameItems
          rw [List.map_cons, List.map_cons, unnamed_eq_of_entryValue_eq sameFirst, ih sameOthers]

theorem toValue_map_unnamed (entries : List Entry) :
    toValue (entries.map Entry.unnamed) = toValue entries := by
  rw [toValue, List.map_map]
  rfl

/-! ### Reading back -/

theorem written_jsonText (entries : List Entry) :
    (Document.ofText (jsonText entries)).read Tree.written = .ok (toValue entries) :=
  Value.written_prettyText (readable_toValue 122 entries) (isSpacing_singleton rfl)

/-- A manifest is read back from its JSON. As written, the text holds one object with the routes,
and for each entry an object of its pattern, component, middleware and parameters; the name of the
route is not there. Read as a value, each object has its keys in increasing order. So two lists of
entries have the same JSON exactly when they are the same up to names. -/
theorem json_determines_entries (left right : List Entry) :
    (Document.ofText (render .json left)).read Tree.written =
        .ok (.obj [("routes", .arr (left.map fun entry =>
          .obj
            [ ("pattern", .str entry.pattern),
              ("component", .str entry.component),
              ("middleware", .arr (entry.middleware.map .str)),
              ("parameters", .arr (entry.parameters.map fun parameter =>
                .obj [("name", .str parameter.name), ("required", .bool parameter.required)])) ]))]) ∧
      Value.ofText (render .json left) =
        .ok (.obj [("routes", .arr (left.map fun entry =>
          .obj
            [ ("component", .str entry.component),
              ("middleware", .arr (entry.middleware.map .str)),
              ("parameters", .arr (entry.parameters.map fun parameter =>
                .obj [("name", .str parameter.name), ("required", .bool parameter.required)])),
              ("pattern", .str entry.pattern) ]))]) ∧
      (render .json left = render .json right ↔
        left.map Entry.unnamed = right.map Entry.unnamed) := by
  refine ⟨written_jsonText left, ?_, ?_, ?_⟩
  · have read : Value.ofText (jsonText left) = .ok (toValue left).sortKeys :=
      Value.ofText_prettyText (readable_toValue 122 left) (isSpacing_singleton rfl)
    have sorted : (toValue left).sortKeys =
        .obj [("routes", .arr (left.map fun entry => (entryValue entry).sortKeys))] := by
      rw [toValue, Value.sortKeys, sortInMembers, Value.sortKeys, sortItems_eq_map, List.map_map]
      rfl
    simp only [sortKeys_entryValue] at sorted
    exact read.trans (congrArg Except.ok sorted)
  · intro same
    have sameReading : (Document.ofText (jsonText left)).read Tree.written =
        (Document.ofText (jsonText right)).read Tree.written :=
      congrArg (fun text => (Document.ofText text).read Tree.written) same
    rw [written_jsonText, written_jsonText] at sameReading
    exact map_unnamed_eq_of_toValue_eq (Except.ok.inj sameReading)
  · intro same
    change jsonText left = jsonText right
    rw [jsonText, ← toValue_map_unnamed left, same, toValue_map_unnamed, ← jsonText]

end PageRoutes.Manifest
