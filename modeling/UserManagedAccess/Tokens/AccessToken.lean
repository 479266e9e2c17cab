/-
UserManagedAccess.Tokens.AccessToken — access tokens, and what mints them.

A token factory and an issuer of refresh tokens keep state of their own (a
store of serialized tokens), which is the type parameter `τ`.
-/
import UserManagedAccess.Credentials.Claims
import UserManagedAccess.Lib.Async
import UserManagedAccess.Util.Errors
import UserManagedAccess.Views.Contract
import UserManagedAccess.Views.Permission

namespace UserManagedAccess.Tokens

open UserManagedAccess.Lib UserManagedAccess.Util UserManagedAccess.Views
open UserManagedAccess.Credentials

structure AccessToken where
  permissions : List Permission
  sub : Option String := none
  contract : Option Json := none

/-- The check `reType(value, AccessToken)`. -/
def AccessToken.assertion : Assertion :=
  ReType.fields [("permissions", ReType.array Permission.assertion),
    ("sub", ReType.optional ReType.string),
    ("contract", ReType.optional ODRLContract)]

structure SerializedToken where
  tokenType : String
  token : String
  deriving DecidableEq

/-- `TokenFactory.serialize`. -/
abbrev Serialize (τ : Type) := AccessToken → Async τ HttpError SerializedToken

/-- A token factory without a state: what it serializes, it reads back with the
same permissions. -/
structure TokenCodec where
  serialize : AccessToken → SerializedToken
  deserialize : String → Option AccessToken
  permissions_deserialize : ∀ token,
    (deserialize (serialize token).token).map AccessToken.permissions = some token.permissions

/-- `RefreshTokenIssuer.issue`. -/
abbrev IssueRefreshToken (τ : Type) := ClaimSet → List Permission → Async τ HttpError String

/-! ## A codec that spells the permissions out -/

namespace TokenCodec

/-- Every character follows a `c`, every word ends in `.`. -/
def spell : List Char → List Char
  | [] => ['.']
  | c :: cs => 'c' :: c :: spell cs

/-- The words of a permission, ended by `|`. -/
def spellPermission (p : Permission) : List Char :=
  (p.resourceId :: p.resourceScopes).flatMap (fun word => spell word.toList) ++ ['|']

/-- The words of each permission; a word is read from its end. -/
def unspell : List Char → List (List (List Char))
  | '.' :: rest => ([] :: (unspell rest).headD []) :: (unspell rest).tail
  | '|' :: rest => [] :: unspell rest
  | 'c' :: c :: rest =>
    match unspell rest with
    | (word :: words) :: others => ((c :: word) :: words) :: others
    | other => other
  | _ => []

def permissionOfWords : List (List Char) → Permission
  | [] => ⟨"", []⟩
  | id :: scopes => ⟨String.ofList id, scopes.map String.ofList⟩

theorem unspell_spell (word rest : List Char) :
    unspell (spell word ++ rest) =
      (word :: (unspell rest).headD []) :: (unspell rest).tail := by
  induction word with
  | nil => simp [spell, unspell]
  | cons c cs ih => simp [spell, unspell, ih]

theorem unspell_words (words : List String) (rest : List Char) :
    unspell (words.flatMap (fun word => spell word.toList) ++ '|' :: rest) =
      words.map String.toList :: unspell rest := by
  induction words with
  | nil => simp [unspell]
  | cons word words ih => simp [List.flatMap_cons, unspell_spell, ih]

theorem permissions_unspell (permissions : List Permission) (rest : List Char) :
    (unspell (permissions.flatMap spellPermission ++ rest)).map permissionOfWords =
      permissions ++ (unspell rest).map permissionOfWords := by
  induction permissions with
  | nil => rfl
  | cons p permissions ih =>
    have hp : permissionOfWords ((p.resourceId :: p.resourceScopes).map String.toList) = p := by
      simp [permissionOfWords, Function.comp_def]
    rw [List.flatMap_cons, spellPermission, List.append_assoc, List.append_assoc,
      List.singleton_append, unspell_words, List.map_cons, hp, ih, List.cons_append]

/-- Only the permissions are written. -/
def spelled : TokenCodec where
  serialize token :=
    { tokenType := "Bearer"
      token := String.ofList (token.permissions.flatMap spellPermission) }
  deserialize text := some { permissions := (unspell text.toList).map permissionOfWords }
  permissions_deserialize token := by
    have hread := permissions_unspell token.permissions []
    rw [List.append_nil] at hread
    simp [hread, unspell]

end TokenCodec
end UserManagedAccess.Tokens
