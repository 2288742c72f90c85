import PageRoutes.Proofs.Component.Named
import PageRoutes.Proofs.Text.Constructs
import PageRoutes.Source.RenderCall
/-!
The calls that name the component of a source text. A call is given by its grammar, and what is found
in a text is the name in the first call of the facade, or in the first call of the helper if the text
holds no call of the facade at all.
-/

set_option autoImplicit false

namespace PageRoutes.Source

open Text

/-! ### Quoted names -/

/-- A name between quotation marks, with any blanks in front. The two marks need not be the same. -/
structure QuotedName where
  lead : Blanks
  opening : Char
  name : List Char
  closing : Char
  opens : isQuoteMark opening = true
  nonempty : name ≠ []
  plain : ∀ c ∈ name, isQuoteMark c = false
  closes : isQuoteMark closing = true

def QuotedName.written (quoted : QuotedName) : List Char :=
  quoted.lead.1 ++ quoted.opening :: (quoted.name ++ [quoted.closing])

theorem isBlank_of_isQuoteMark {c : Char} (mark : isQuoteMark c = true) : isBlank c = false := by
  rw [isQuoteMark, Bool.or_eq_true, beq_iff_eq, beq_iff_eq] at mark
  rcases mark with rfl | rfl <;> decide

theorem quotedName?_written_append (quoted : QuotedName) (rest : List Char) :
    quotedName? (quoted.written ++ rest) = some (quoted.name, rest) := by
  have skipped : skipBlanks (quoted.written ++ rest) =
      quoted.opening :: (quoted.name ++ quoted.closing :: rest) :=
    skipBlanks_eq_cons_iff.mpr
      ⟨isBlank_of_isQuoteMark quoted.opens, quoted.lead, by simp [QuotedName.written]⟩
  have cut : cutRun (!isQuoteMark ·) (quoted.name ++ quoted.closing :: rest) =
      (quoted.name, quoted.closing :: rest) :=
    cutRun_append_cons (fun c member => by simp [quoted.plain c member])
      (by simp [quoted.closes]) rest
  obtain ⟨c, name, isName⟩ := List.exists_cons_of_ne_nil quoted.nonempty
  rw [isName] at cut
  simp only [quotedName?, skipped, quoted.opens, if_true, isName, cut]

theorem exists_of_quotedName? {text name rest : List Char}
    (read : quotedName? text = some (name, rest)) :
    ∃ quoted : QuotedName, quoted.name = name ∧ text = quoted.written ++ rest := by
  unfold quotedName? at read
  split at read
  · cases read
  · next mark behind skipped =>
      split at read
      · next opens =>
          split at read
          · next c name closing rest cut =>
              cases read
              obtain ⟨-, lead, rfl⟩ := skipBlanks_eq_cons_iff.mp skipped
              obtain ⟨rfl, keeps, stops⟩ := cutRun_eq_iff.mp cut
              have closes : isQuoteMark closing = true := by simpa using stops closing rfl
              refine ⟨⟨lead, mark, c :: name, closing, opens, List.cons_ne_nil c name, ?_, closes⟩,
                rfl, by simp [QuotedName.written]⟩
              intro d member
              simpa using keeps d member
          · cases read
      · cases read

theorem quotedName?_eq_some_iff {text name rest : List Char} :
    quotedName? text = some (name, rest) ↔
      ∃ quoted : QuotedName, quoted.name = name ∧ text = quoted.written ++ rest := by
  constructor
  · exact exists_of_quotedName?
  · rintro ⟨quoted, rfl, rfl⟩
    exact quotedName?_written_append quoted rest

/-! ### Calls -/

structure Call where
  argument : QuotedName
  last : Blanks
  stop : Char
  stops : stop = ',' ∨ stop = ')'

def Call.written (opening : List Char) (call : Call) : List Char :=
  opening ++ (call.argument.written ++ (call.last.1 ++ [call.stop]))

def Call.component (call : Call) : String :=
  String.ofList call.argument.name

theorem endsArgument_iff {text : List Char} :
    endsArgument text = true ↔
      ∃ (last : Blanks) (stop : Char) (rest : List Char),
        (stop = ',' ∨ stop = ')') ∧ text = last.1 ++ stop :: rest := by
  unfold endsArgument
  constructor
  · intro ends
    split at ends
    · next rest skipped =>
        obtain ⟨-, last, parts⟩ := skipBlanks_eq_cons_iff.mp skipped
        exact ⟨last, ',', rest, .inl rfl, parts⟩
    · next rest skipped =>
        obtain ⟨-, last, parts⟩ := skipBlanks_eq_cons_iff.mp skipped
        exact ⟨last, ')', rest, .inr rfl, parts⟩
    · cases ends
  · rintro ⟨last, stop, rest, stops, rfl⟩
    have notBlank : isBlank stop = false := by rcases stops with rfl | rfl <;> decide
    rw [skipBlanks_eq_cons_iff.mpr ⟨notBlank, last, rfl⟩]
    rcases stops with rfl | rfl <;> rfl

theorem callOf?_eq_some_iff {opening text name : List Char} :
    callOf? opening text = some name ↔
      ∃ (call : Call) (rest : List Char),
        text = call.written opening ++ rest ∧ call.argument.name = name := by
  unfold callOf?
  constructor
  · intro read
    split at read
    · cases read
    · next arguments opened =>
        split at read
        · cases read
        · next name behind named =>
            split at read
            · next ends =>
                cases read
                obtain ⟨argument, rfl, rfl⟩ := quotedName?_eq_some_iff.mp named
                obtain ⟨last, stop, rest, stops, rfl⟩ := endsArgument_iff.mp ends
                refine ⟨⟨argument, last, stop, stops⟩, rest, ?_, rfl⟩
                simp [Call.written, after?_eq_some_iff.mp opened]
            · cases read
  · rintro ⟨call, rest, rfl, rfl⟩
    have ends : endsArgument (call.last.1 ++ call.stop :: rest) = true :=
      endsArgument_iff.mpr ⟨call.last, call.stop, rest, call.stops, rfl⟩
    have parts : call.written opening ++ rest =
        opening ++ (call.argument.written ++ (call.last.1 ++ call.stop :: rest)) := by
      simp [Call.written]
    simp only [parts, after?_append, quotedName?_written_append, ends, if_true]

/-- Calls of the facade may stand behind any text. -/
def facadeCalls : Construct Call where
  written := Call.written facadeOpening

/-- Calls of the helper do not stand behind a word character. -/
def helperCalls : Construct Call where
  written := Call.written helperOpening
  mayFollow before := ∀ c ∈ before.getLast?, isWordCharacter c = false

theorem facadeCalls_isReadBy :
    facadeCalls.IsReadBy (fun _ => callOf? facadeOpening) fun call _ => call.argument.name := by
  intro before text name
  rw [callOf?_eq_some_iff]
  exact ⟨fun read => ⟨trivial, read⟩, And.right⟩

theorem helperCalls_isReadBy :
    helperCalls.IsReadBy (wholeWordCallOf? helperOpening) fun call _ => call.argument.name := by
  intro before text name
  have inFront : helperCalls.mayFollow before ↔ ¬before.getLast?.any isWordCharacter = true := by
    cases isLast : before.getLast? <;> simp [helperCalls, isLast]
  rw [wholeWordCallOf?, inFront]
  split
  · next word => exact iff_of_false (fun read => nomatch read) fun both => both.1 word
  · next noWord =>
      rw [callOf?_eq_some_iff]
      exact ⟨fun read => ⟨noWord, read⟩, And.right⟩

/-! ### The component of a source text -/

section

variable {source : String} {component : String}

theorem componentIn?_eq_none_iff :
    componentIn? source = none ↔
      (∀ before call behind, ¬facadeCalls.StandsIn source.toList before call behind) ∧
        ∀ before call behind, ¬helperCalls.StandsIn source.toList before call behind := by
  rw [componentIn?, Option.map_eq_none_iff, Option.or_eq_none_iff, facadeCall?, helperCall?,
    facadeCalls_isReadBy.leftmost?_eq_none_iff, helperCalls_isReadBy.leftmostBehind?_eq_none_iff]

theorem componentIn?_eq_some_iff :
    componentIn? source = some component ↔
      (∃ before call behind, facadeCalls.StandsFirstIn source.toList before call behind ∧
          call.component = component) ∨
        (∀ before call behind, ¬facadeCalls.StandsIn source.toList before call behind) ∧
          ∃ before call behind, helperCalls.StandsFirstIn source.toList before call behind ∧
            call.component = component := by
  simp only [componentIn?, Option.map_eq_some_iff, Option.or_eq_some_iff, facadeCall?, helperCall?,
    facadeCalls_isReadBy.leftmost?_eq_none_iff, facadeCalls_isReadBy.leftmost?_eq_some_iff,
    helperCalls_isReadBy.leftmostBehind?_eq_some_iff]
  constructor
  · rintro ⟨name, ⟨before, call, behind, first, rfl⟩ | ⟨none, before, call, behind, first, rfl⟩,
      rfl⟩
    · exact .inl ⟨before, call, behind, first, rfl⟩
    · exact .inr ⟨none, before, call, behind, first, rfl⟩
  · rintro (⟨before, call, behind, first, rfl⟩ | ⟨none, before, call, behind, first, rfl⟩)
    · exact ⟨_, .inl ⟨before, call, behind, first, rfl⟩, rfl⟩
    · exact ⟨_, .inr ⟨none, before, call, behind, first, rfl⟩, rfl⟩

end

/-- The component of a source text is the name in the call of the facade that starts furthest left.
Only a text without such a call has the name in the leftmost call of the helper as its component, and
a text without any call has none. -/
theorem component_is_named_by_first_call (source : String) :
    (∀ component, componentIn? source = some component ↔
      (∃ before call behind, facadeCalls.StandsFirstIn source.toList before call behind ∧
          call.component = component) ∨
        (∀ before call behind, ¬facadeCalls.StandsIn source.toList before call behind) ∧
          ∃ before call behind, helperCalls.StandsFirstIn source.toList before call behind ∧
            call.component = component) ∧
      (componentIn? source = none ↔
        (∀ before call behind, ¬facadeCalls.StandsIn source.toList before call behind) ∧
          ∀ before call behind, ¬helperCalls.StandsIn source.toList before call behind) ∧
      (∀ component, componentIn? source = some component →
        component ≠ "" ∧ ∀ c ∈ component.toList, isQuoteMark c = false) ∧
      ∀ before call behind, facadeCalls.StandsIn source.toList before call behind →
        ∃ before first behind, facadeCalls.StandsFirstIn source.toList before first behind ∧
          componentIn? source = some first.component := by
  refine ⟨fun component => componentIn?_eq_some_iff, componentIn?_eq_none_iff, ?_, ?_⟩
  · intro component found
    have named : ∃ call : Call, call.component = component := by
      rcases componentIn?_eq_some_iff.mp found with
        ⟨-, call, -, -, isComponent⟩ | ⟨-, -, call, -, -, isComponent⟩
      · exact ⟨call, isComponent⟩
      · exact ⟨call, isComponent⟩
    obtain ⟨call, rfl⟩ := named
    refine ⟨componentIn?_ne_empty found, ?_⟩
    rw [Call.component, String.toList_ofList]
    exact call.argument.plain
  · intro before call behind stands
    cases found : componentIn? source with
    | none => exact absurd stands ((componentIn?_eq_none_iff.mp found).1 before call behind)
    | some component =>
        rcases componentIn?_eq_some_iff.mp found with
          ⟨start, first, rest, isFirst, rfl⟩ | ⟨none, -⟩
        · exact ⟨start, first, rest, isFirst, rfl⟩
        · exact absurd stands (none before call behind)

end PageRoutes.Source
