import PageRoutes.Proofs.Source.Calls
import PageRoutes.Source.FortifyView
/-!
Registrations of views. A source is looked at as a row of statements that register views, with any
other text around them. The name that is found for a view is the first one rendered from the argument
of its registration on, up to the end of the source. That is the view's own name if the argument
renders one; if it does not, the view gets the first name that any later text renders.
-/

set_option autoImplicit false

namespace PageRoutes.Source

open Text

/-! ### Names that are rendered -/

def renderings : Construct QuotedName where
  written quoted := facadeOpening ++ quoted.written

theorem renderings_isReadBy :
    renderings.IsReadBy (fun _ => renderedName?) fun quoted _ => quoted.name := by
  intro before text name
  constructor
  · intro read
    obtain ⟨⟨_, rest⟩, named, rfl⟩ := Option.map_eq_some_iff.mp read
    obtain ⟨arguments, opened, named⟩ := Option.bind_eq_some_iff.mp named
    obtain rfl := after?_eq_some_iff.mp opened
    obtain ⟨quoted, rfl, rfl⟩ := quotedName?_eq_some_iff.mp named
    exact ⟨trivial, quoted, rest, (List.append_assoc _ _ _).symm, rfl⟩
  · rintro ⟨-, quoted, rest, rfl, rfl⟩
    have parts : renderings.written quoted ++ rest = facadeOpening ++ (quoted.written ++ rest) :=
      List.append_assoc _ _ _
    change renderedName? (renderings.written quoted ++ rest) = some quoted.name
    rw [parts, renderedName?, after?_append, Option.bind_some, quotedName?_written_append]
    rfl

def RendersFirst (text : List Char) (component : String) : Prop :=
  ∃ before quoted behind, renderings.StandsFirstIn text before quoted behind ∧
    String.ofList quoted.name = component

theorem leftmost?_renderedName?_iff {text : List Char} {component : String} :
    (leftmost? renderedName? text).map String.ofList = some component ↔
      RendersFirst text component := by
  rw [Option.map_eq_some_iff, RendersFirst]
  simp only [renderings_isReadBy.leftmost?_eq_some_iff]
  constructor
  · rintro ⟨_, ⟨before, quoted, behind, isFirst, rfl⟩, rfl⟩
    exact ⟨before, quoted, behind, isFirst, rfl⟩
  · rintro ⟨before, quoted, behind, isFirst, rfl⟩
    exact ⟨_, ⟨before, quoted, behind, isFirst, rfl⟩, rfl⟩

theorem exists_rendersFirst_iff {text : List Char} :
    (∃ component, RendersFirst text component) ↔ (leftmost? renderedName? text).isSome := by
  simp only [← leftmost?_renderedName?_iff, ← Option.isSome_iff_exists, Option.isSome_map]

theorem RendersFirst.unique {text : List Char} {first second : String}
    (rendersFirst : RendersFirst text first) (rendersSecond : RendersFirst text second) :
    first = second :=
  Option.some.inj <| (leftmost?_renderedName?_iff.mpr rendersFirst).symm.trans
    (leftmost?_renderedName?_iff.mpr rendersSecond)

theorem exists_written_eq_concat (quoted : QuotedName) :
    ∃ front, renderings.written quoted = front ++ [quoted.closing] ∧
      front.countP isQuoteMark = 1 := by
  refine ⟨facadeOpening ++ (quoted.lead.1 ++ quoted.opening :: quoted.name),
    by simp [renderings, QuotedName.written], ?_⟩
  have opening : facadeOpening.countP isQuoteMark = 0 := by decide
  have lead : quoted.lead.1.countP isQuoteMark = 0 := by
    refine List.countP_eq_zero.mpr fun c member mark => ?_
    have blank := quoted.lead.2 c member
    rw [isBlank_of_isQuoteMark mark] at blank
    cases blank
  have name : quoted.name.countP isQuoteMark = 0 :=
    List.countP_eq_zero.mpr fun c member => by simp [quoted.plain c member]
  simp [opening, lead, name, quoted.opens]

theorem countP_written (quoted : QuotedName) :
    (renderings.written quoted).countP isQuoteMark = 2 := by
  obtain ⟨front, isQuoted, oneMark⟩ := exists_written_eq_concat quoted
  simp [isQuoted, oneMark, quoted.closes]

/-- The end of a text could only cut a rendering off in front of its second quotation mark. -/
theorem written_prefix_of_append {text rest behind : List Char} {quoted : QuotedName}
    (marks : 2 ≤ text.countP isQuoteMark)
    (parts : text ++ rest = renderings.written quoted ++ behind) :
    renderings.written quoted <+: text := by
  have inWhole : renderings.written quoted <+: text ++ rest := parts ▸ List.prefix_append _ _
  rcases List.prefix_or_prefix_of_prefix (List.prefix_append text rest) inWhole with cutOff | whole
  · obtain ⟨front, isQuoted, oneMark⟩ := exists_written_eq_concat quoted
    rw [isQuoted] at cutOff ⊢
    rcases List.prefix_concat_iff.mp cutOff with rfl | inFront
    · exact List.prefix_rfl
    · have fewer := inFront.sublist.countP_le (p := isQuoteMark)
      omega
  · exact whole

/-- What stands behind a text does not change what the text renders first. -/
theorem RendersFirst.append {text : List Char} {component : String}
    (renders : RendersFirst text component) (rest : List Char) :
    RendersFirst (text ++ rest) component := by
  obtain ⟨before, quoted, behind, isFirst, isName⟩ := renders
  refine ⟨before, quoted, behind ++ rest, ⟨⟨by simp [isFirst.parts], trivial⟩, ?_⟩, isName⟩
  intro other rest' later stands
  refine Nat.le_of_not_lt fun shorter => ?_
  obtain ⟨between, rfl⟩ : other <+: before := by
    have inWhole : before <+: text ++ rest :=
      ⟨renderings.written quoted ++ behind ++ rest, by simp [isFirst.parts]⟩
    exact List.prefix_of_prefix_length_le ⟨_, stands.parts.symm⟩ inWhole (Nat.le_of_lt shorter)
  have isText : text = other ++ (between ++ (renderings.written quoted ++ behind)) := by
    rw [isFirst.parts, List.append_assoc]
  have parts : between ++ (renderings.written quoted ++ behind) ++ rest =
      renderings.written later ++ rest' :=
    List.append_cancel_left (by rw [← List.append_assoc, ← isText, stands.parts])
  have marks : 2 ≤ (between ++ (renderings.written quoted ++ behind)).countP isQuoteMark := by
    rw [List.countP_append, List.countP_append, countP_written]
    omega
  -- The rendering that starts further left ends within the text, so the one found is not the first.
  obtain ⟨further, isWhole⟩ := written_prefix_of_append marks parts
  have inText : renderings.StandsIn text other later further := ⟨by rw [isText, isWhole], trivial⟩
  exact Nat.not_le_of_lt shorter (isFirst.leftmost inText)

/-! ### Registrations -/

def IsMethodName (name : List Char) : Prop :=
  ∀ c ∈ name, isBlank c = false ∧ c ≠ '(' ∧ c ≠ ':'

instance (name : List Char) : Decidable (IsMethodName name) :=
  decidableForallMem name _

/-- A statement that registers a view, and the text behind it up to the next registration. -/
structure Registration where
  method : List Char
  argument : List Char
  behind : List Char
  isName : IsMethodName method
  noOther : ¬registrationOpening <:+: argument
  noNext : ¬registrationOpening <:+: behind

def Registration.fromArgument (registration : Registration) : List Char :=
  registration.argument ++ ')' :: ';' :: registration.behind

def Registration.written (registration : Registration) : List Char :=
  registrationOpening ++ (registration.method ++ '(' :: registration.fromArgument)

structure Provider where
  front : List Char
  registrations : List Registration
  noEarlier : ¬registrationOpening <:+: front

def writtenAll (registrations : List Registration) : List Char :=
  registrations.flatMap Registration.written

def Provider.text (provider : Provider) : String :=
  String.ofList (provider.front ++ writtenAll provider.registrations)

/-! ### Looking for a registration -/

theorem Registration.written_append (registration : Registration) (rest : List Char) :
    registration.written ++ rest = registrationOpening ++
      (registration.method ++ '(' :: (registration.fromArgument ++ rest)) := by
  simp [Registration.written]

/-- Only registrations follow a registration, and one cannot go on with the opening of another. -/
theorem head?_writtenAll {registrations : List Registration} {c : Char}
    (isHead : c ∈ (writtenAll registrations).head?) : c ∉ registrationOpening.tail := by
  cases registrations with
  | nil => cases isHead
  | cons first others =>
      obtain rfl : 'F' = c := Option.some.inj isHead
      decide

theorem Registration.noOpening (registration : Registration) :
    ¬registrationOpening <:+: registration.method ++ '(' :: registration.fromArgument := by
  have inMethod : ¬registrationOpening <:+: registration.method := fun within =>
    (registration.isName ':' (within.mem (by decide))).2.2 rfl
  have inNothing : ¬registrationOpening <:+: [] := by decide
  exact not_infix_append_cons (by decide) inMethod <|
    not_infix_append_cons (by decide) registration.noOther <|
      not_infix_append_cons (by decide) inNothing registration.noNext

section

variable {viewMethod text front : List Char} {registration : Registration}
  {registrations later : List Registration}

theorem registeredName?_eq_none (other : after? registrationOpening text = none) :
    registeredName? viewMethod text = none := by
  rw [registeredName?, other]
  rfl

theorem registeredName?_other (isName : IsMethodName viewMethod)
    (different : registration.method ≠ viewMethod) (rest : List Char) :
    registeredName? viewMethod (registration.written ++ rest) = none := by
  rw [registeredName?, registration.written_append, after?_append, Option.bind_some]
  cases found : after? viewMethod
      (registration.method ++ '(' :: (registration.fromArgument ++ rest)) with
  | none => rfl
  | some left =>
      -- One of the two methods goes on where the other one ends.
      rcases List.append_eq_append_iff.mp (after?_eq_some_iff.mp found) with
        ⟨further, isLonger, isLeft⟩ | ⟨further, isLonger, rfl⟩
      · cases further with
        | nil => exact absurd (by simpa using isLonger.symm) different
        | cons c further =>
            obtain ⟨rfl, -⟩ := List.cons.inj isLeft
            exact absurd rfl (isName '(' (by simp [isLonger])).2.1
      · cases further with
        | nil => exact absurd (by simpa using isLonger) different
        | cons c further =>
            obtain ⟨notBlank, notOpening, -⟩ := registration.isName c (by simp [isLonger])
            simp [skipBlanks_cons_of_not_isBlank, notBlank, notOpening]

theorem registeredName?_own (rest : List Char) :
    registeredName? registration.method (registration.written ++ rest) =
      leftmost? renderedName? (registration.fromArgument ++ rest) := by
  have skipped : skipBlanks ('(' :: (registration.fromArgument ++ rest)) = _ :=
    skipBlanks_cons_of_not_isBlank _ (by decide)
  simp only [registeredName?, registration.written_append, after?_append, Option.bind_some, skipped]

theorem leftmost?_registeredName?_eq_none (nothing : leftmost? renderedName? text = none) :
    leftmost? (registeredName? viewMethod) text = none := by
  rw [leftmost?_eq_none_iff] at nothing ⊢
  intro behind isEnd
  rw [registeredName?]
  cases found : (after? registrationOpening behind).bind (after? viewMethod) with
  | none => rfl
  | some rest =>
      obtain ⟨method, opened, named⟩ := Option.bind_eq_some_iff.mp found
      obtain rfl := after?_eq_some_iff.mp opened
      obtain rfl := after?_eq_some_iff.mp named
      dsimp only
      split
      · next arguments skipped =>
          have inRest : arguments <:+ rest :=
            (List.suffix_cons '(' arguments).trans (skipped ▸ List.dropWhile_suffix isBlank)
          have inText : arguments <:+ text :=
            ((inRest.trans (List.suffix_append _ _)).trans (List.suffix_append _ _)).trans isEnd
          exact leftmost?_eq_none_iff.mpr fun place inArguments =>
            nothing place (inArguments.trans inText)
      · rfl

/-- Text in which no registration begins is passed over. -/
theorem leftmost?_front (noOpening : ¬registrationOpening <:+: front) :
    leftmost? (registeredName? viewMethod) (front ++ writtenAll registrations) =
      leftmost? (registeredName? viewMethod) (writtenAll registrations) :=
  leftmost?_append_of_silent fun _ isEnd nonempty =>
    registeredName?_eq_none
      (after?_eq_none_of_absent noOpening (fun _ => head?_writtenAll) isEnd nonempty)

theorem leftmost?_written :
    leftmost? (registeredName? viewMethod) (registration.written ++ writtenAll later) =
      (registeredName? viewMethod (registration.written ++ writtenAll later)).or
        (leftmost? (registeredName? viewMethod) (writtenAll later)) := by
  have parts : registration.written = 'F' :: ("ortify::".toList ++
      (registration.method ++ '(' :: registration.fromArgument)) := rfl
  -- No registration begins within another one.
  have noOpening : ¬registrationOpening <:+: "ortify::".toList ++
      (registration.method ++ '(' :: registration.fromArgument) :=
    not_infix_append (by decide) registration.noOpening
  rw [parts, List.cons_append, leftmost?_cons, leftmost?_front noOpening]

theorem leftmost?_others (isName : IsMethodName viewMethod)
    (others : ∀ other ∈ registrations, other.method ≠ viewMethod) :
    leftmost? (registeredName? viewMethod) (writtenAll (registrations ++ later)) =
      leftmost? (registeredName? viewMethod) (writtenAll later) := by
  induction registrations with
  | nil => rfl
  | cons other registrations ih =>
      obtain ⟨different, others⟩ := List.forall_mem_cons.mp others
      have parts : writtenAll (other :: registrations ++ later) =
        other.written ++ writtenAll (registrations ++ later) := rfl
      rw [parts, leftmost?_written, registeredName?_other isName different, Option.none_or,
        ih others]

theorem leftmost?_own :
    leftmost? (registeredName? registration.method) (writtenAll (registration :: later)) =
      leftmost? renderedName? (registration.fromArgument ++ writtenAll later) := by
  have parts : writtenAll (registration :: later) = registration.written ++ writtenAll later := rfl
  rw [parts, leftmost?_written, registeredName?_own]
  cases found : leftmost? renderedName? (registration.fromArgument ++ writtenAll later) with
  | some name => rfl
  | none =>
      -- The search goes on, but all that is left was part of the text in which nothing was found.
      refine leftmost?_registeredName?_eq_none (leftmost?_eq_none_iff.mpr fun behind isEnd => ?_)
      exact leftmost?_eq_none_iff.mp found behind (isEnd.trans (List.suffix_append _ _))

end

/-! ### The view of a method -/

def Provider.startingAt (provider : Provider) (viewMethod : List Char) : List Registration :=
  provider.registrations.dropWhile (·.method != viewMethod)

/-- What is found for the method is what the argument of its first registration renders first, and
nothing if there is no registration for it or the argument renders nothing. -/
def FindsOwnView (provider : Provider) (viewMethod : String) : Prop :=
  ∀ component, registeredComponent? provider.text viewMethod = some component ↔
    ∃ own later, provider.startingAt viewMethod.toList = own :: later ∧
      RendersFirst own.argument component

section

variable {provider : Provider} {viewMethod : String} {own : Registration}
  {later : List Registration} {component : String}

theorem Provider.method_of_startingAt {method : List Char}
    (starting : provider.startingAt method = own :: later) : own.method = method := by
  have stops := List.head?_dropWhile_not (·.method != method) provider.registrations
  rw [← startingAt, starting] at stops
  simpa using stops

theorem registeredComponent?_eq_startingAt (isName : IsMethodName viewMethod.toList) :
    registeredComponent? provider.text viewMethod =
      (leftmost? (registeredName? viewMethod.toList)
        (writtenAll (provider.startingAt viewMethod.toList))).map String.ofList := by
  have others : ∀ other ∈ provider.registrations.takeWhile (·.method != viewMethod.toList),
      other.method ≠ viewMethod.toList := fun other member =>
    bne_iff_ne.mp (List.all_eq_true.mp List.all_takeWhile other member)
  have parts : provider.registrations = provider.registrations.takeWhile
      (·.method != viewMethod.toList) ++ provider.startingAt viewMethod.toList :=
    List.takeWhile_append_dropWhile.symm
  rw [registeredComponent?, Provider.text, String.toList_ofList, leftmost?_front provider.noEarlier,
    parts, leftmost?_others isName others]

theorem registeredComponent?_eq_some_iff (isName : IsMethodName viewMethod.toList) :
    registeredComponent? provider.text viewMethod = some component ↔
      ∃ own later, provider.startingAt viewMethod.toList = own :: later ∧
        RendersFirst (own.fromArgument ++ writtenAll later) component := by
  rw [registeredComponent?_eq_startingAt isName]
  cases starting : provider.startingAt viewMethod.toList with
  | nil =>
      have nothing : leftmost? (registeredName? viewMethod.toList) (writtenAll []) = none := rfl
      simp [nothing]
  | cons own later =>
      rw [← provider.method_of_startingAt starting, leftmost?_own, leftmost?_renderedName?_iff]
      constructor
      · intro renders
        exact ⟨own, later, rfl, renders⟩
      · rintro ⟨_, _, same, renders⟩
        obtain ⟨rfl, rfl⟩ := List.cons.inj same
        exact renders

/-- A rendering within an argument comes before everything behind it. -/
theorem RendersFirst.fromArgument (renders : RendersFirst own.argument component) :
    RendersFirst (own.fromArgument ++ writtenAll later) component := by
  rw [Registration.fromArgument, List.append_assoc]
  exact renders.append _

end

/-- What is found for a method is what is rendered first from the argument of its first registration
on, to the end of the source. So it is the view of the method's own registration exactly if the
argument renders something, or nothing behind it does. -/
theorem view_is_own_iff (provider : Provider) (viewMethod : String)
    (isName : IsMethodName viewMethod.toList) :
    (∀ component, registeredComponent? provider.text viewMethod = some component ↔
      ∃ own later, provider.startingAt viewMethod.toList = own :: later ∧
        RendersFirst (own.fromArgument ++ writtenAll later) component) ∧
    (FindsOwnView provider viewMethod ↔
      ∀ own later, provider.startingAt viewMethod.toList = own :: later →
        (∃ component, RendersFirst (own.fromArgument ++ writtenAll later) component) →
        ∃ component, RendersFirst own.argument component) := by
  refine ⟨fun component => registeredComponent?_eq_some_iff isName, ?_⟩
  constructor
  · rintro findsOwn own later starting ⟨component, renders⟩
    have found := (registeredComponent?_eq_some_iff isName).mpr ⟨own, later, starting, renders⟩
    obtain ⟨own', later', starting', rendersOwn⟩ := (findsOwn component).mp found
    obtain ⟨rfl, rfl⟩ := List.cons.inj (starting.symm.trans starting')
    exact ⟨component, rendersOwn⟩
  · intro ifAny component
    rw [registeredComponent?_eq_some_iff isName]
    constructor
    · rintro ⟨own, later, starting, renders⟩
      obtain ⟨component', rendersOwn⟩ := ifAny own later starting ⟨component, renders⟩
      obtain rfl := renders.unique rendersOwn.fromArgument
      exact ⟨own, later, starting, rendersOwn⟩
    · rintro ⟨own, later, starting, rendersOwn⟩
      exact ⟨own, later, starting, rendersOwn.fromArgument⟩

def loginRegistration : Registration where
  method := "loginView".toList
  argument := "fn () => view('auth.login')".toList
  behind := [' ']
  isName := by decide +kernel
  noOther := by decide +kernel
  noNext := by decide +kernel

def registerRegistration : Registration where
  method := "registerView".toList
  argument := "fn () => Inertia::render('auth/register')".toList
  behind := []
  isName := by decide +kernel
  noOther := by decide +kernel
  noNext := by decide +kernel

def mixedProvider : Provider where
  front := []
  registrations := [loginRegistration, registerRegistration]
  noEarlier := by decide +kernel

theorem loginView_gets_view_of_registerView :
    IsMethodName "loginView".toList ∧ ¬FindsOwnView mixedProvider "loginView" ∧
      registeredComponent? mixedProvider.text "loginView" = some "auth/register" := by
  have isName : IsMethodName "loginView".toList := by decide +kernel
  obtain ⟨found, ownIff⟩ := view_is_own_iff mixedProvider "loginView" isName
  have starting : mixedProvider.startingAt "loginView".toList =
      [loginRegistration, registerRegistration] := rfl
  have renders : RendersFirst (loginRegistration.fromArgument ++ writtenAll [registerRegistration])
      "auth/register" := leftmost?_renderedName?_iff.mp (by decide +kernel)
  have notOwn : ¬∃ component, RendersFirst loginRegistration.argument component :=
    mt exists_rendersFirst_iff.mp (by decide +kernel)
  refine ⟨isName, fun findsOwn => ?_, (found _).mpr ⟨_, _, starting, renders⟩⟩
  exact notOwn (ownIff.mp findsOwn _ _ starting ⟨_, renders⟩)

end PageRoutes.Source
