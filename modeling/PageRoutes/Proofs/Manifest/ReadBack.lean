import PageRoutes.Manifest.Document
import PageRoutes.Manifest.ModuleReader
import PageRoutes.Proofs.Manifest.Written
/-!
Manifests are read back from modules. Every item of a list is read back whatever stands behind it, so
a list is read back by induction on its items, a line of a module field by field, and a module line
by line. The name of a route is all that is lost.
-/

set_option autoImplicit false

namespace PageRoutes.Manifest

open Text

/-! ### Quoted texts -/

theorem readInsideQuotes?_escape_append {c : Char} {text inside rest : List Char}
    (read : readInsideQuotes? text = some (inside, rest)) :
    readInsideQuotes? (escape c ++ text) = some (c :: inside, rest) := by
  by_cases isBackslash : c = '\\'
  · subst isBackslash
    simp [escape, readInsideQuotes?, unescape?, read]
  by_cases isQuote : c = '\''
  · subst isQuote
    simp [escape, readInsideQuotes?, unescape?, read]
  by_cases isFeed : c = '\n'
  · subst isFeed
    simp [escape, readInsideQuotes?, unescape?, read]
  by_cases isReturn : c = '\r'
  · subst isReturn
    simp [escape, readInsideQuotes?, unescape?, read]
  · rw [escape_of_isPlain ⟨isBackslash, isQuote, isFeed, isReturn⟩, List.singleton_append]
    simp [readInsideQuotes?, isBackslash, isFeed, isReturn, read]

/-- Behind an opening quote, the escaped text is read up to the quote that closes it. -/
theorem readInsideQuotes?_flatMap_escape (text rest : List Char) :
    readInsideQuotes? (text.flatMap escape ++ '\'' :: rest) = some (text, rest) := by
  induction text with
  | nil => rfl
  | cons c text ih =>
      rw [List.flatMap_cons, List.append_assoc]
      exact readInsideQuotes?_escape_append ih

theorem readLiteral?_quote (text : String) (rest : List Char) :
    readLiteral? (quote text ++ rest) = some (text, rest) := by
  have opening : token? "'" (quote text ++ rest) =
      some (text.toList.flatMap escape ++ '\'' :: rest) := by
    rw [quote_append]
    rfl
  simp only [readLiteral?, opening, Option.bind_eq_bind, Option.bind_some,
    readInsideQuotes?_flatMap_escape, String.ofList_toList, Option.pure_def]

/-! ### Lists in brackets -/

section

variable {α : Type} {item : List Char → Option (α × List Char)} {write : α → List Char}

/-- Written items are read back in front of any text, also behind a space, and none of them looks
like the end of the list. -/
structure ReadsBack (item : List Char → Option (α × List Char)) (write : α → List Char) :
    Prop where
  read : ∀ value rest, item (write value ++ rest) = some (value, rest)
  behindSpace : ∀ text, item (' ' :: text) = item text
  notClosing : ∀ value rest, token? "]" (write value ++ rest) = none
  nonempty : ∀ value, write value ≠ []

theorem readItems?_behindSpace (reads : ReadsBack item write) (fuel : Nat) (text : List Char) :
    readItems? item fuel (' ' :: text) = readItems? item fuel text := by
  cases fuel with
  | zero => rfl
  | succ fuel =>
      have sameEnd : token? "]" (' ' :: text) = token? "]" text := rfl
      rw [readItems?, readItems?, sameEnd, reads.behindSpace]

/-- Enough fuel is left for every item, as each of them takes one unit. -/
theorem readItems?_commaSeparated (reads : ReadsBack item write) (items : List α)
    (rest : List Char) {fuel : Nat} (enough : items.length < fuel) :
    readItems? item fuel (commaSeparated (items.map write) ++ ']' :: rest) =
      some (items, rest) := by
  induction items generalizing fuel with
  | nil =>
      obtain ⟨fuel, rfl⟩ := Nat.exists_eq_add_of_lt enough
      rfl
  | cons first others ih =>
      cases fuel with
      | zero => exact absurd enough (Nat.not_lt_zero _)
      | succ fuel =>
          have enoughForOthers : others.length < fuel := Nat.lt_of_succ_lt_succ enough
          cases others with
          | nil =>
              have noComma : token? "," (']' :: rest) = none := rfl
              have closing : token? "]" (']' :: rest) = some rest := rfl
              simp [readItems?, commaSeparated, joinWith, reads.notClosing, reads.read, noComma,
                closing]
          | cons second others =>
              have comma (text : List Char) :
                  token? "," (", ".toList ++ text) = some (' ' :: text) := rfl
              have remaining := ih enoughForOthers
              rw [List.map_cons, List.map_cons, commaSeparated_cons, List.append_assoc,
                List.append_assoc, readItems?, reads.notClosing]
              simp only [reads.read, comma, Option.bind_eq_bind, Option.bind_some]
              rw [readItems?_behindSpace reads, ← List.map_cons, remaining]
              rfl

theorem length_le_length_commaSeparated (nonempty : ∀ value, write value ≠ []) (items : List α) :
    items.length ≤ (commaSeparated (items.map write)).length := by
  induction items with
  | nil => exact Nat.zero_le _
  | cons first others ih =>
      have atLeastOne : 1 ≤ (write first).length := List.length_pos_iff.mpr (nonempty first)
      cases others with
      | nil => simpa [commaSeparated, joinWith] using atLeastOne
      | cons second others =>
          rw [List.map_cons] at ih
          rw [List.map_cons, List.map_cons, commaSeparated_cons, List.length_append,
            List.length_append, List.length_cons]
          omega

theorem readArray?_commaSeparated (reads : ReadsBack item write) (items : List α)
    (rest : List Char) :
    readArray? item ('[' :: (commaSeparated (items.map write) ++ ']' :: rest)) =
      some (items, rest) := by
  have opening : token? "[" ('[' :: (commaSeparated (items.map write) ++ ']' :: rest)) =
      some (commaSeparated (items.map write) ++ ']' :: rest) := rfl
  have bound := length_le_length_commaSeparated reads.nonempty items
  simp only [readArray?, opening, Option.bind_eq_bind, Option.bind_some]
  apply readItems?_commaSeparated reads
  rw [List.length_append]
  omega

end

/-! ### Middleware and parameters -/

theorem readsBack_quote : ReadsBack readLiteral? quote where
  read := readLiteral?_quote
  behindSpace _ := rfl
  notClosing text rest := by
    rw [quote_append]
    rfl
  nonempty _ := List.cons_ne_nil _ _

theorem readTruth?_of_bool (value : Bool) (rest : List Char) :
    readTruth? ((if value then "true" else "false").toList ++ rest) = some (value, rest) := by
  cases value <;> rfl

theorem readParameter?_eq_some {text nameField comma requiredField brace rest : List Char}
    {parameter : Parameter} (opening : token? r"{" text = some nameField)
    (name : readValueOf? "name" readLiteral? nameField = some (parameter.name, comma))
    (separator : token? "," comma = some requiredField)
    (required : readValueOf? "required" readTruth? requiredField =
      some (parameter.required, brace))
    (closing : token? r"}" brace = some rest) :
    readParameter? text = some (parameter, rest) := by
  simp [readParameter?, opening, name, separator, required, closing]

theorem readParameter?_parameterText (parameter : Parameter) (rest : List Char) :
    readParameter? (parameterText parameter ++ rest) = some (parameter, rest) := by
  have opening (text : List Char) : token? r"{" (r"{ name: ".toList ++ text) =
      some (" name: ".toList ++ text) := rfl
  have name (text : List Char) : readValueOf? "name" readLiteral? (" name: ".toList ++ text) =
      readLiteral? text := rfl
  have comma (text : List Char) : token? "," (", required: ".toList ++ text) =
      some (" required: ".toList ++ text) := rfl
  have required (text : List Char) :
      readValueOf? "required" readTruth? (" required: ".toList ++ text) = readTruth? text := rfl
  have closing : token? r"}" (r" }".toList ++ rest) = some rest := rfl
  rw [parameterText_append]
  exact readParameter?_eq_some (opening _) ((name _).trans (readLiteral?_quote _ _)) (comma _)
    ((required _).trans (readTruth?_of_bool _ _)) closing

theorem readsBack_parameterText : ReadsBack readParameter? parameterText where
  read := readParameter?_parameterText
  behindSpace _ := rfl
  notClosing parameter rest := by
    rw [parameterText_append]
    rfl
  nonempty _ := List.cons_ne_nil _ _

/-! ### Lines and modules -/

theorem readEntry?_eq_some
    {text first comma₁ second comma₂ third comma₃ fourth brace rest : List Char} {entry : Entry}
    (opening : token? r"{" text = some first)
    (pattern : readValueOf? "pattern" readLiteral? first = some (entry.pattern, comma₁))
    (separator₁ : token? "," comma₁ = some second)
    (component : readValueOf? "component" readLiteral? second = some (entry.component, comma₂))
    (separator₂ : token? "," comma₂ = some third)
    (middleware : readValueOf? "middleware" (readArray? readLiteral?) third =
      some (entry.middleware, comma₃))
    (separator₃ : token? "," comma₃ = some fourth)
    (parameters : readValueOf? "parameters" (readArray? readParameter?) fourth =
      some (entry.parameters, brace))
    (closing : token? r"}" brace = some rest) :
    readEntry? text = some (entry.unnamed, rest) := by
  simp [ readEntry?, opening, pattern, separator₁, component, separator₂, middleware, separator₃,
    parameters, closing, Entry.unnamed]

/-- The line of a route is read back, up to the comma that ends it. -/
theorem readEntry?_entryText (entry : Entry) (rest : List Char) :
    readEntry? (entryText entry ++ rest) = some (entry.unnamed, ',' :: '\n' :: rest) := by
  have opening (text : List Char) : token? r"{" (r"    { pattern: ".toList ++ text) =
      some (" pattern: ".toList ++ text) := rfl
  have pattern (text : List Char) :
      readValueOf? "pattern" readLiteral? (" pattern: ".toList ++ text) = readLiteral? text := rfl
  have comma₁ (text : List Char) : token? "," (", component: ".toList ++ text) =
      some (" component: ".toList ++ text) := rfl
  have component (text : List Char) :
      readValueOf? "component" readLiteral? (" component: ".toList ++ text) =
        readLiteral? text := rfl
  have comma₂ (text : List Char) : token? "," (", middleware: [".toList ++ text) =
      some (" middleware: [".toList ++ text) := rfl
  have middleware (text : List Char) :
      readValueOf? "middleware" (readArray? readLiteral?) (" middleware: [".toList ++ text) =
        readArray? readLiteral? ('[' :: text) := rfl
  have bracket (text : List Char) : "], parameters: [".toList ++ text =
      ']' :: (", parameters: [".toList ++ text) := rfl
  have comma₃ (text : List Char) : token? "," (", parameters: [".toList ++ text) =
      some (" parameters: [".toList ++ text) := rfl
  have parameters (text : List Char) :
      readValueOf? "parameters" (readArray? readParameter?) (" parameters: [".toList ++ text) =
        readArray? readParameter? ('[' :: text) := rfl
  have lineEnd (text : List Char) : r"] },".toList ++ text = ']' :: (r" },".toList ++ text) := rfl
  have closing (text : List Char) : token? r"}" (r" },".toList ++ text) =
      some (',' :: text) := rfl
  rw [entryText_append, bracket, lineEnd]
  exact readEntry?_eq_some (opening _) ((pattern _).trans (readLiteral?_quote _ _)) (comma₁ _)
    ((component _).trans (readLiteral?_quote _ _)) (comma₂ _)
    ((middleware _).trans (readArray?_commaSeparated readsBack_quote _ _)) (comma₃ _)
    ((parameters _).trans (readArray?_commaSeparated readsBack_parameterText _ _)) (closing _)

theorem readItems?_flatMap_entryText (entries : List Entry) {fuel : Nat}
    (enough : entries.length < fuel) :
    readItems? readEntry? fuel (entries.flatMap entryText ++ moduleFoot) =
      some (entries.map Entry.unnamed, ",\n".toList ++ '}' :: ";\n".toList) := by
  induction entries generalizing fuel with
  | nil =>
      obtain ⟨fuel, rfl⟩ := Nat.exists_eq_add_of_lt enough
      rfl
  | cons entry entries ih =>
      cases fuel with
      | zero => exact absurd enough (Nat.not_lt_zero _)
      | succ fuel =>
          have notClosing (rest : List Char) : token? "]" (entryText entry ++ rest) = none := by
            rw [entryText_append]
            rfl
          have comma (text : List Char) : token? "," (',' :: text) = some text := rfl
          have behindLine (text : List Char) (fuel : Nat) :
              readItems? readEntry? fuel ('\n' :: text) = readItems? readEntry? fuel text := by
            cases fuel <;> rfl
          rw [List.flatMap_cons, List.append_assoc, readItems?, notClosing]
          simp only [readEntry?_entryText, comma, Option.bind_eq_bind, Option.bind_some]
          rw [behindLine, ih (Nat.lt_of_succ_lt_succ enough)]
          rfl

theorem length_le_length_flatMap_entryText (entries : List Entry) :
    entries.length ≤ (entries.flatMap entryText).length := by
  induction entries with
  | nil => exact Nat.zero_le _
  | cons entry entries ih =>
      have nonempty : entryText entry ≠ [] := List.cons_ne_nil _ _
      have atLeastOne : 1 ≤ (entryText entry).length := List.length_pos_iff.mpr nonempty
      rw [List.flatMap_cons, List.length_append, List.length_cons]
      omega

theorem ofModule?_eq_some {text : String}
    {head₁ head₂ head₃ object comma brace semicolon rest : List Char} {entries : List Entry}
    (comment : skipComment? text.toList = some head₁)
    (exported : token? "export" head₁ = some head₂)
    (defaulted : token? "default" head₂ = some head₃)
    (opened : token? r"{" head₃ = some object)
    (routes : readValueOf? "routes" (readArray? readEntry?) object = some (entries, comma))
    (separator : token? "," comma = some brace)
    (closed : token? r"}" brace = some semicolon)
    (ended : token? ";" semicolon = some rest)
    (nothingElse : skipBlanks rest = []) :
    ofModule? text = some entries := by
  simp [ofModule?, comment, exported, defaulted, opened, routes, separator, closed, ended,
    nothingElse]

theorem skipComment?_line {comment : List Char} (oneLine : '\n' ∉ comment) (rest : List Char) :
    skipComment? ("//".toList ++ (comment ++ '\n' :: rest)) = some ('\n' :: rest) := by
  have token : token? "//" ("//".toList ++ (comment ++ '\n' :: rest)) =
      some (comment ++ '\n' :: rest) := rfl
  have within : ∀ c ∈ comment, decide (c ≠ '\n') = true :=
    fun c member => decide_eq_true fun same => oneLine (same ▸ member)
  rw [skipComment?, token, Option.map_some, List.dropWhile_append_of_pos within,
    List.dropWhile_cons_of_neg (by decide)]

theorem skipComment?_moduleText (entries : List Entry) :
    skipComment? (moduleText entries).toList =
      some ('\n' :: (moduleOpening ++ (entries.flatMap entryText ++ moduleFoot))) := by
  have cut : "// This file is generated by `force10 generate`. Do not edit it by hand.\n".toList =
      "//".toList ++
        (" This file is generated by `force10 generate`. Do not edit it by hand.".toList ++
          ['\n']) := by decide +kernel
  rw [moduleText, String.toList_ofList, moduleChars, List.append_assoc]
  delta moduleHead
  rw [cut, List.append_assoc, List.append_assoc, List.append_assoc, List.singleton_append]
  exact skipComment?_line (by decide +kernel) _

/-- A manifest is read back from its module; only the names of the routes are lost. -/
theorem ofModule?_moduleText (entries : List Entry) :
    ofModule? (moduleText entries) = some (entries.map Entry.unnamed) := by
  let lines := entries.flatMap entryText ++ moduleFoot
  have exported : token? "export" ('\n' :: (moduleOpening ++ lines)) =
      some (" default ".toList ++ '{' :: ("\n  routes: [\n".toList ++ lines)) := rfl
  have defaulted : token? "default" (" default ".toList ++
      '{' :: ("\n  routes: [\n".toList ++ lines)) =
        some (' ' :: '{' :: ("\n  routes: [\n".toList ++ lines)) := rfl
  have opened : token? r"{" (' ' :: '{' :: ("\n  routes: [\n".toList ++ lines)) =
      some ("\n  routes: [\n".toList ++ lines) := rfl
  have bracket : readValueOf? "routes" (readArray? readEntry?)
      ("\n  routes: [\n".toList ++ lines) = readItems? readEntry? (lines.length + 2) lines := rfl
  have enough : entries.length < lines.length + 2 := by
    have bound := length_le_length_flatMap_entryText entries
    rw [List.length_append]
    omega
  have routes := bracket.trans (readItems?_flatMap_entryText entries enough)
  exact ofModule?_eq_some (skipComment?_moduleText entries) exported defaulted opened routes
    rfl rfl rfl rfl

theorem moduleText_map_unnamed (entries : List Entry) :
    moduleText (entries.map Entry.unnamed) = moduleText entries := by
  have sameLines : (entries.map Entry.unnamed).flatMap entryText = entries.flatMap entryText := by
    rw [List.flatMap_map]
    rfl
  rw [moduleText, moduleChars, sameLines, ← moduleChars, ← moduleText]

/-- A module that was written is read back as the entries it was written from, in their order and
without their names. So two lists of entries have the same module exactly when they are the same up
to names. -/
theorem module_determines_entries (left right : List Entry) :
    ofModule? (render .module left) = some (left.map Entry.unnamed) ∧
      (render .module left = render .module right ↔
        left.map Entry.unnamed = right.map Entry.unnamed) := by
  refine ⟨ofModule?_moduleText left, ?_, ?_⟩
  · intro same
    have sameReading : ofModule? (moduleText left) = ofModule? (moduleText right) :=
      congrArg ofModule? same
    rw [ofModule?_moduleText, ofModule?_moduleText] at sameReading
    exact Option.some.inj sameReading
  · intro same
    change moduleText left = moduleText right
    rw [← moduleText_map_unnamed left, same, moduleText_map_unnamed]

end PageRoutes.Manifest
