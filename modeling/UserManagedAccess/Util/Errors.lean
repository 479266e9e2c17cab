/-
UserManagedAccess.Util.Errors — the errors a handler can end with, and the
`Result` of a ticketing strategy.
-/
import Mathlib.Data.List.Basic

namespace UserManagedAccess.Util

/-- A requirement a client can still satisfy (`NeedInfoError.ts`). -/
structure RequiredClaim where
  claimTokenFormat : Option String := none
  claimType : Option String := none
  friendlyName : Option String := none
  issuer : Option String := none
  name : Option String := none
  derivationResourceId : Option String := none
  resourceScopes : Option (List String) := none
  deriving DecidableEq, Repr

/-- The HTTP errors of the server. `error` is any other exception, which the
HTTP layer answers with status 500. -/
inductive HttpError where
  | badRequest (message : String)
  | unauthorized
  | forbidden (message : String)
  | notFound
  | methodNotAllowed
  | conflict (message : String)
  | internalServer (message : String)
  | needInfo (message : String) (ticket : String) (requiredClaims : List RequiredClaim)
  | error (message : String)
  deriving DecidableEq, Repr

/-- `Result.ts`. -/
inductive Result (S F : Type) where
  | success (value : S)
  | failure (value : F)
  deriving DecidableEq, Repr

end UserManagedAccess.Util
