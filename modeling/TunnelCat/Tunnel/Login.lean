import TunnelCat.Lib.Bytes
import TunnelCat.Lib.Text

/-!
# Logging in

`Authenticator.Login` starts the configured methods — the signed key and the password — in
parallel, takes the first token that comes back, and fails when all of them have failed; when the
failures look like an unreachable arbiter it asks the cache of the control nodes before it gives
up.  What the methods and the cache answer, and in which order the answers come in, is the
environment's choice, so `Authenticator.login` is a function of the answers in the order of their
arrival.

The error it returns is a text put together from the texts of the methods, and it is this text
that `isAuthRejection` searches later on to tell a definitive rejection from an arbiter that is
away.
-/

set_option autoImplicit false

namespace TunnelCat

/-- The sentinel an error wraps, as far as `errors.Is` is asked about it. -/
inductive AuthSentinel where
  /-- `ErrAuthRejected`. -/
  | rejected
  /-- `ErrAuthTransient`. -/
  | transient
  /-- Neither of them, such as a network error. -/
  | other
  deriving DecidableEq, Repr

/-- The error of a login attempt. -/
structure AuthError where
  /-- What it wraps. -/
  sentinel : AuthSentinel
  /-- Its text, `err.Error()`. -/
  text : String
  deriving DecidableEq, Repr

/-- The `Authenticator`, with the fields that `Login` reads and writes. -/
structure Authenticator where
  /-- The session token; empty before the first login. -/
  token : Bytes
  /-- Whether the parameters of the key authentication are set, `keyAuth != nil`. -/
  keyAuth : Bool
  /-- The password; empty if there is none. -/
  password : String
  deriving DecidableEq, Repr

/-- The error of `Login` when every method has failed with one of `errs`. -/
def loginError (errs : List AuthError) : AuthError :=
  let text := "login: " ++ "; ".intercalate (errs.map AuthError.text)
  if errs.any (·.sentinel = .rejected) then ⟨.rejected, "auth rejected: " ++ text⟩
  else if errs.any (·.sentinel = .transient) then
    ⟨.transient, "auth transient: arbiter unavailable: " ++ text⟩
  else ⟨.other, text⟩

/-- The loop of `Login` over the channel: the first token, or all the errors. -/
def firstToken : List (Except AuthError Bytes) → Except (List AuthError) Bytes
  | [] => .error []
  | .ok tok :: _ => .ok tok
  | .error e :: rs =>
    match firstToken rs with
    | .ok tok => .ok tok
    | .error errs => .error (e :: errs)

/-- `isAuthRejection`, for an error that is not `nil`. -/
def isAuthRejection (err : AuthError) : Bool :=
  Text.contains err.text "\"invalid credentials\"" || Text.contains err.text "\"key expired\""

namespace Authenticator

/-- How many methods `Login` launches. -/
def methods (a : Authenticator) : ℕ :=
  (if a.keyAuth then 1 else 0) + (if a.password ≠ "" then 1 else 0)

/-- `Login`, as the token it stores or the error it returns: `replies` are the answers of the
methods in the order of their arrival, `cache` is what `tryAuthViaControlCache` would come back
with. -/
def login (a : Authenticator) (replies : List (Except AuthError Bytes))
    (cache : Except AuthError Bytes) : Except AuthError Bytes :=
  if a.methods = 0 then .error ⟨.other, "login: no valid auth method available"⟩
  else
    match firstToken replies with
    | .ok tok => .ok tok
    | .error errs =>
      if errs.any (·.sentinel = .transient) && !errs.any (·.sentinel = .rejected) then
        match cache with
        | .ok tok => .ok tok
        | .error _ => .error (loginError errs)
      else .error (loginError errs)

end Authenticator

end TunnelCat
