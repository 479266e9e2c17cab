/-
UserManagedAccess.Dialog.Input — the input and output of a negotiation.

`DialogInput.assertion` is the check of the request; `DialogInput.ofJson`
reads the fields the negotiators use from a value it has accepted.
-/
import UserManagedAccess.Views.Contract
import UserManagedAccess.Views.Permission

namespace UserManagedAccess.Dialog

open UserManagedAccess.Util UserManagedAccess.Views

/-- One pushed claim. -/
structure ClaimToken where
  claimToken : Option String
  claimTokenFormat : Option String

structure DialogInput where
  ticket : Option String := none
  claimTokens : List ClaimToken := []
  permissions : Option (List Permission) := none

namespace DialogInput

def claimTokenAssertion : Assertion :=
  ReType.fields [("claim_token", ReType.optional ReType.string),
    ("claim_token_format", ReType.optional ReType.string)]

def assertion : Assertion :=
  ReType.fields [("@context", ReType.optional ReType.string),
    ("grant_type", ReType.optional ReType.string),
    ("ticket", ReType.optional ReType.string),
    ("claim_token",
      ReType.optional (ReType.union [ReType.string, ReType.array claimTokenAssertion])),
    ("claim_token_format", ReType.optional ReType.string),
    ("pct", ReType.optional ReType.string),
    ("rpt", ReType.optional ReType.string),
    ("permissions", ReType.optional (ReType.array Permission.assertion)),
    ("permission", ReType.optional (ReType.array ODRLPermission)),
    ("scope", ReType.optional ReType.string),
    ("refresh_token", ReType.optional ReType.string)]

/-- A string is truthy when it is not empty. -/
def truthy (value : Option String) : Option String := value.filter (· ≠ "")

/-- The pushed claims: an array of them, or a single one that may be partial. -/
def readClaimTokens (input : Json) : List ClaimToken :=
  match input.field "claim_token" with
  | .array entries => entries.map fun entry =>
      { claimToken := (entry.field "claim_token").asString?
        claimTokenFormat := (entry.field "claim_token_format").asString? }
  | single =>
    let token := single.asString?
    let format := (input.field "claim_token_format").asString?
    if (truthy token).isSome ∨ (truthy format).isSome then
      [{ claimToken := token, claimTokenFormat := format }]
    else []

def ofJson (input : Json) : DialogInput where
  ticket := truthy (input.field "ticket").asString?
  claimTokens := readClaimTokens input
  permissions :=
    match input.field "permissions" with
    | .undefined => none
    | permissions => some (permissionsOfJson permissions)

end DialogInput

structure DialogOutput where
  accessToken : String
  tokenType : String
  refreshToken : Option String := none
  isPartial : Bool := false
  derivationResourceId : Option String := none
  deriving DecidableEq

end UserManagedAccess.Dialog
