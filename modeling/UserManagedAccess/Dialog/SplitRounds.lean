/-
UserManagedAccess.Dialog.SplitRounds — one dialog over several rounds, next to
one request with all of its claims.

Every round that fails hands out a new ticket, and the next one uses it. What
a ticket keeps of a round are the claims it provided; its permissions are
those from before the round.
-/
import UserManagedAccess.Dialog.PlainNegotiator
import UserManagedAccess.Ticketing.Strategy.AggregatorIdTheorems

namespace UserManagedAccess.Dialog

open UserManagedAccess.Lib UserManagedAccess.Util UserManagedAccess.Views
open UserManagedAccess.Credentials UserManagedAccess.Ticketing UserManagedAccess.Tokens
open UserManagedAccess.Policies

/-- What is verified, and by whom the rest is authorized. -/
structure DialogSetting where
  verify : Credential → Except HttpError ClaimSet
  codec : TokenCodec
  ids : AggregatorIds
  authorizer : Authorizer
  allowPartialSuccess : Bool := false
  registrationStore : KeyValueStorage String Registration
  derivationStore : KeyValueStorage String String

/-- A request, and the identifier it gets for a new ticket. -/
structure Round where
  input : Json
  randomUUID : String

def Round.claimTokens (round : Round) : List ClaimToken :=
  (DialogInput.ofJson round.input).claimTokens

/-- The round has a ticket. -/
structure Round.Uses (round : Round) (id : String) : Prop where
  accepted : DialogInput.assertion round.input = .ok ()
  ticket : (DialogInput.ofJson round.input).ticket = some id

namespace DialogSetting

variable (setting : DialogSetting)

def strategy : TicketingStrategy :=
  aggregatorStrategy setting.ids
    (immediateAuthorizerStrategy setting.authorizer setting.allowPartialSuccess)
    setting.registrationStore setting.derivationStore

def negotiate (round : Round) (s : NegotiatorState Unit) :
    Except HttpError DialogOutput × NegotiatorState Unit :=
  ((plainNegotiator setting.verify setting.codec setting.strategy).negotiate
    round.randomUUID round.input).run s

/-- Rounds that start with the ticket `id` and end with the answer. -/
inductive Rounds : String → NegotiatorState Unit → List Round →
    Except HttpError DialogOutput → Prop
  | last {id s round} (huses : round.Uses id) : Rounds id s [round] (setting.negotiate round s).1
  | next {id s round message ticket requirements s' rounds answer} (huses : round.Uses id)
      (hrun : setting.negotiate round s =
        (.error (.needInfo message ticket requirements), s'))
      (hfresh : s.ticketStore.get ticket = none)
      (hstored : (s'.ticketStore.get ticket).isSome)
      (hrest : Rounds ticket s' rounds answer) : Rounds id s (round :: rounds) answer

/-- The permissions of the token in the answer. -/
def grantedPermissions : Except HttpError DialogOutput → Option (List Permission)
  | .ok output => (setting.codec.deserialize output.accessToken).map AccessToken.permissions
  | .error _ => none

/-! ## What the claims show -/

/-- A claim once verified, with the derivation identifiers it can read. -/
structure Evidence where
  claims : ClaimSet
  readIds : List String

def readClaim (claim : ClaimToken) : Except HttpError Evidence := do
  let claims ← PlainNegotiator.verifyClaim setting.verify claim
  let readIds ← AggregatorStrategy.derivedReadIds (claims.values ACCESS)
  return { claims, readIds }

def readClaims (claims : List ClaimToken) : Except HttpError (List Evidence) :=
  claims.mapM setting.readClaim

/-- What one more claim leaves of a ticket: the derivation requirements it covers
are gone, and the other entries are decoded and encoded once. -/
def supply (ticket : Ticket) (e : Evidence) : Ticket where
  derivedIds := ticket.derivedIds
  provided := ImmediateAuthorizerStrategy.provide ticket.provided e.claims
  permissions := (AggregatorStrategy.keptTicket ticket e.readIds).permissions.map
    (AggregatorStrategy.roundTrip setting.ids (AggregatorStrategy.keptTicket ticket e.readIds))

def supplied (ticket : Ticket) (evidence : List Evidence) : Ticket :=
  evidence.foldl setting.supply ticket

/-- The claims provided, and nothing else. -/
def provideOnly (ticket : Ticket) (evidence : List Evidence) : Ticket :=
  { ticket with
    provided := evidence.foldl
      (fun provided e => ImmediateAuthorizerStrategy.provide provided e.claims)
      ticket.provided }

/-- Some of the claims are verified to show `derivation-read` on the identifier. -/
def Covers (claims : List ClaimToken) (id : String) : Prop :=
  ∃ claim ∈ claims, ∃ verified,
    PlainNegotiator.verifyClaim setting.verify claim = .ok verified ∧
      AggregatorStrategy.GrantsDerivationRead verified id

/-! ## When a split makes no difference -/

/-- No entry of the ticket is renamed when identifiers are decoded and
encoded again. -/
def NotRenamed (ticket : Ticket) : Prop :=
  AggregatorStrategy.KeepsIds setting.ids ticket ∧ AggregatorStrategy.KeepsNames setting.ids ticket

/-- Whatever derivation requirement the earlier rounds cover, the last round
covers again. -/
def CoversAgain (ticket : Ticket) (earlier last : List ClaimToken) : Prop :=
  ∀ p ∈ ticket.permissions, ticket.isDerived p.resourceId = true →
    hasDerivationRead p.resourceScopes = true → setting.Covers earlier p.resourceId →
      setting.Covers last p.resourceId

/-- The claims of the last round leave of every entry what all of them leave. -/
def LeavesAlike (ticket : Ticket) (earlier last : List ClaimToken) : Prop :=
  ∀ evidence more, setting.readClaims earlier = .ok evidence → setting.readClaims last = .ok more →
    (setting.supplied ticket more).permissions =
      (setting.supplied ticket (evidence ++ more)).permissions

/-- With all of these claims nothing is outstanding, and the authorizer grants
the rest. -/
def GrantsAll (ticket : Ticket) (claims : List ClaimToken) : Prop :=
  ∃ evidence, setting.readClaims claims = .ok evidence ∧
    ¬ AggregatorStrategy.Outstanding (setting.supplied ticket evidence) ∧
    ∃ granted, setting.authorizer (setting.supplied ticket evidence).provided
        (fullQuery (AggregatorStrategy.decodeIds setting.ids
          (setting.supplied ticket evidence)).1.permissions) = .ok granted ∧
      (pairs granted).Nonempty ∧
      (setting.allowPartialSuccess = true ∨
        pairs (AggregatorStrategy.decodeIds setting.ids
          (setting.supplied ticket evidence)).1.permissions ⊆ pairs granted)

/-- The same with the claims of a last round, and only the provided ones of the
earlier rounds. -/
def GrantsLast (ticket : Ticket) (earlier last : List ClaimToken) : Prop :=
  ∃ evidence, setting.readClaims earlier = .ok evidence ∧
    setting.GrantsAll (provideOnly ticket evidence) last

end DialogSetting

end UserManagedAccess.Dialog
