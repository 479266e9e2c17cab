/-
UserManagedAccess.Credentials.Claims — claim sets and the claim types the
server knows.

A `ClaimSet` maps a claim type to the list of values asserted for it. A key
that is present with the value `undefined` is skipped by every reader, so it
is not represented.
-/
import UserManagedAccess.Lib.Dict
import UserManagedAccess.Util.ReType

namespace UserManagedAccess.Credentials

open UserManagedAccess.Lib UserManagedAccess.Util

abbrev ClaimSet := Dict (List Json)

def WEBID : String := "urn:solidlab:uma:claims:types:webid"
def CLIENTID : String := "urn:solidlab:uma:claims:types:clientid"
def ORIGINAL_WEBID : String := "urn:solidlab:uma:claims:types:original:webid"
def ORIGINAL_CLIENTID : String := "urn:solidlab:uma:claims:types:original:clientid"
def PURPOSE : String := "http://www.w3.org/ns/odrl/2/purpose"
def ACCESS : String := "urn:solidlab:uma:claims:types:access"
def VC : String := "urn:solidlab:uma:claims:types:vc"

/-- `claims[key]` where a list is expected: absent is empty. -/
def ClaimSet.values (claims : ClaimSet) (key : String) : List Json :=
  (claims.get key).getD []

end UserManagedAccess.Credentials
