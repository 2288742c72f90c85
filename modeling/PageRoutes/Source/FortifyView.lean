import PageRoutes.Source.RenderCall
/-!
Views of the Fortify package. Its controllers leave rendering to functions that the application
registers, one for each view; the component of a view is the first name that is rendered behind the
start of its registration.
-/

set_option autoImplicit false

namespace PageRoutes.Source

open Text

def fortifyPackage : String := "laravel/fortify"

def fortifyRegistrars : List (String × String) :=
  [ ("Laravel\\Fortify\\Http\\Controllers\\AuthenticatedSessionController@create", "loginView"),
    ("Laravel\\Fortify\\Http\\Controllers\\RegisteredUserController@create", "registerView"),
    ("Laravel\\Fortify\\Http\\Controllers\\PasswordResetLinkController@create",
      "requestPasswordResetLinkView"),
    ("Laravel\\Fortify\\Http\\Controllers\\NewPasswordController@create", "resetPasswordView"),
    ("Laravel\\Fortify\\Http\\Controllers\\EmailVerificationPromptController", "verifyEmailView"),
    ("Laravel\\Fortify\\Http\\Controllers\\ConfirmablePasswordController@show",
      "confirmPasswordView"),
    ("Laravel\\Fortify\\Http\\Controllers\\TwoFactorAuthenticatedSessionController@create",
      "twoFactorChallengeView") ]

def fortifyRegistrar? (identifier : String) : Option String :=
  fortifyRegistrars.lookup (String.ofList (identifier.toList.dropWhile (· == '\\')))

def registrationOpening : List Char := "Fortify::".toList

def renderedName? (text : List Char) : Option (List Char) :=
  ((after? facadeOpening text).bind quotedName?).map Prod.fst

def registeredName? (viewMethod text : List Char) : Option (List Char) :=
  match (after? registrationOpening text).bind (after? viewMethod) with
  | none => none
  | some rest =>
      match skipBlanks rest with
      | '(' :: arguments => leftmost? renderedName? arguments
      | _ => none

def registeredComponent? (source viewMethod : String) : Option String :=
  (leftmost? (registeredName? viewMethod.toList) source.toList).map String.ofList

end PageRoutes.Source
