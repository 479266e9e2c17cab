/-
UserManagedAccess.Credentials.UnsecureVerifier — the header a user or a client
identifies itself with, as it is parsed (`MappedSchemeParser`) and taken for
true (`UnsecureVerifier`).

The schemes of a parser are a table, and `newUrl` is `new URL(text).toString()`,
or the message of the error it throws.
-/
import UserManagedAccess.Credentials.OidcVerifier
import UserManagedAccess.Credentials.UriComponents
import UserManagedAccess.Util.Forms
import UserManagedAccess.Util.Http

namespace UserManagedAccess.Credentials

open UserManagedAccess.Lib UserManagedAccess.Util UserManagedAccess.Dialog

def UNSECURE : String := "urn:solidlab:uma:claims:formats:webid"

/-! ## MappedSchemeParser -/

namespace MappedSchemeParser

/-- The schemes of `config/credentials/parsers/default.json`. -/
def defaultSchemes : Dict String := [("WebID", UNSECURE), ("Bearer", OIDC)]

/-- `authorization.split(' ', 1)[0]`. -/
def scheme (authorization : String) : String :=
  String.ofList (authorization.toList.takeWhile (· ≠ ' '))

/-- What is taken for the format of a scheme. An inherited property is passed
on, and its text is what the verifiers are looked up by. -/
def formatOf (schemeMap : Dict String) (scheme : String) : Option String :=
  match schemeMap.property scheme with
  | .own format => DialogInput.truthy (some format)
  | .inherited => some (inheritedText scheme)
  | .missing => none

def handleSafe (schemeMap : Dict String) (request : HttpHandlerRequest) :
    Except HttpError Credential :=
  match DialogInput.truthy (request.headers.get "authorization") with
  | none => .error .unauthorized
  | some authorization =>
    match formatOf schemeMap (scheme authorization) with
    | none => .error (.forbidden
        ("Unsupported Authorization scheme " ++ scheme authorization ++ "."))
    | some format => .ok
        { token := String.ofList (authorization.toList.drop ((scheme authorization).length + 1))
          format }

end MappedSchemeParser

/-! ## UnsecureVerifier -/

namespace UnsecureVerifier

/-- `new URL(decodeURIComponent(raw)).toString()`. -/
def readIri (newUrl : String → Except String String) (raw : String) : Except HttpError String :=
  match decodeURIComponent raw with
  | .error _ => .error (.error "Error verifying Access Token via WebID: URI malformed")
  | .ok text =>
    match newUrl text with
    | .error message => .error (.error ("Error verifying Access Token via WebID: " ++ message))
    | .ok iri => .ok iri

def verify (newUrl : String → Except String String) (credential : Credential) :
    Except HttpError ClaimSet :=
  if credential.format ≠ UNSECURE then
    .error (.error ("Token format " ++ credential.format ++
      " does not match this processor's format."))
  else
    match split ':' credential.token with
    | [webId] => do
      let webId ← readIri newUrl webId
      return [(WEBID, [.string webId])]
    | [webId, clientId] => do
      let webId ← readIri newUrl webId
      let clientId ← readIri newUrl clientId
      return [(WEBID, [.string webId]), (CLIENTID, [.string clientId])]
    | _ => .error (.error "Invalid token format, only one ':' is expected.")

end UnsecureVerifier

/-! ## What is read of a WebID -/

/-- `WebID ${encodeURIComponent(webId)}`. -/
def webIdHeader (webId : String) : String := "WebID " ++ encodeURIComponent webId

theorem colon_notMem_encodeURIComponent (text : String) :
    ':' ∉ (encodeURIComponent text).toList :=
  notMem_encodeURIComponent (by decide) (by decide) (by decide) text

theorem split_encodeURIComponent (text : String) :
    split ':' (encodeURIComponent text) = [encodeURIComponent text] := by
  unfold split
  rw [List.splitOn_eq_singleton (colon_notMem_encodeURIComponent text)]
  simp

/-- The parser takes the header of a WebID apart. -/
theorem handleSafe_webIdHeader {schemeMap : Dict String} {request : HttpHandlerRequest}
    {webId format : String} (hscheme : schemeMap.get "WebID" = some format) (hformat : format ≠ "")
    (hheader : request.headers.get "authorization" = some (webIdHeader webId)) :
    MappedSchemeParser.handleSafe schemeMap request =
      .ok { token := encodeURIComponent webId, format } := by
  have hchars : (webIdHeader webId).toList =
      "WebID".toList ++ ' ' :: (encodeURIComponent webId).toList := by
    rw [webIdHeader, String.toList_append]
    rfl
  have hname : MappedSchemeParser.scheme (webIdHeader webId) = "WebID" := by
    have hall : "WebID".toList.all (fun c => decide (c ≠ ' ')) = true := rfl
    rw [MappedSchemeParser.scheme, hchars,
      List.takeWhile_append_of_pos (List.all_eq_true.mp hall)]
    simp
  have htruthy : ∀ {text : String}, text ≠ "" → DialogInput.truthy (some text) = some text := by
    intro text htext
    simp [DialogInput.truthy, htext]
  have hnonempty : webIdHeader webId ≠ "" := by
    intro heq
    have hempty := congrArg String.toList heq
    rw [hchars] at hempty
    simp at hempty
  unfold MappedSchemeParser.handleSafe
  rw [hheader, htruthy hnonempty]
  dsimp only
  rw [hname, MappedSchemeParser.formatOf, Dict.property_of_get hscheme]
  dsimp only
  rw [htruthy hformat]
  have hrest : ("WebID".toList ++ ' ' :: (encodeURIComponent webId).toList).drop
      ("WebID".length + 1) = (encodeURIComponent webId).toList := rfl
  dsimp only
  rw [hchars, hrest, String.ofList_toList]

/-- A WebID in a header is claimed, as the URL it is. -/
theorem verify_webId {newUrl : String → Except String String} {webId iri : String}
    (hurl : newUrl webId = .ok iri) :
    UnsecureVerifier.verify newUrl { token := encodeURIComponent webId, format := UNSECURE } =
      .ok [(WEBID, [.string iri])] := by
  unfold UnsecureVerifier.verify
  rw [if_neg (not_not.mpr rfl), split_encodeURIComponent]
  dsimp only
  rw [UnsecureVerifier.readIri, decodeURIComponent_encodeURIComponent]
  dsimp only
  rw [hurl]
  rfl

end UserManagedAccess.Credentials
