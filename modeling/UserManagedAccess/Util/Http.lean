/-
UserManagedAccess.Util.Http — requests, responses and their validation.
-/
import UserManagedAccess.Lib.Dict
import UserManagedAccess.Util.ReType
import UserManagedAccess.Util.Errors

namespace UserManagedAccess.Util

open UserManagedAccess.Lib

structure HttpHandlerRequest where
  url : String := ""
  method : String := ""
  parameters : Dict String := []
  headers : Dict String := []
  body : Json

structure HttpHandlerResponse where
  status : Nat
  body : Json := .undefined

/-- `RequestValidator.ts`: the owner a request was made for, or an error. -/
abbrev RequestValidator := HttpHandlerRequest → Except HttpError String

end UserManagedAccess.Util
