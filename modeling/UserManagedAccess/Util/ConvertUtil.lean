/-
UserManagedAccess.Util.ConvertUtil — the IRI heuristic.
-/
import Mathlib.Data.List.Basic

namespace UserManagedAccess.Util

/-- What `\s` of a regular expression matches. -/
def isWhitespace (c : Char) : Bool :=
  [0x9, 0xa, 0xb, 0xc, 0xd, 0x20, 0xa0, 0x1680, 0x2028, 0x2029, 0x202f, 0x205f, 0x3000,
    0xfeff].contains c.toNat || (0x2000 ≤ c.toNat && c.toNat ≤ 0x200a)

def isAsciiLetter (c : Char) : Bool := c.isLower || c.isUpper

def isSchemeChar (c : Char) : Bool :=
  isAsciiLetter c || c.isDigit || c == '+' || c == '.' || c == '-'

/-- `IRI_REGEX`: a scheme that starts with a letter, a colon, and no
whitespace after it. -/
def isIri (input : String) : Bool :=
  match input.toList with
  | [] => false
  | c :: cs =>
    isAsciiLetter c &&
      match cs.dropWhile isSchemeChar with
      | ':' :: rest => rest.all (fun c => !isWhitespace c)
      | _ => false

end UserManagedAccess.Util
