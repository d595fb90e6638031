import Snapd.Lib.Regex
import Mathlib.Data.List.Infix

/-! Snap naming in Go (`snap/naming/validate.go`): snap, instance, hook and app names. The
regular expressions are matched whole (each is anchored by `^` and `$`), so a match is
membership in the language of the regex. -/

namespace Snapd.Naming

/-- `%q` of a name, without Go's escaping of special characters. -/
def quoted (s : List Char) : String := "\"" ++ String.ofList s ++ "\""

/-- The class `[lo-hi]`. -/
def charRange (lo hi : Char) (c : Char) : Bool := decide (lo ≤ c ∧ c ≤ hi)

/-- `[a-z]` -/
def lowerClass : Regex Char := .cls (charRange 'a' 'z')

/-- `[a-z0-9]` -/
def lowerDigitClass : Regex Char := .cls fun c => charRange 'a' 'z' c || charRange '0' '9' c

/-- `[a-zA-Z0-9]` -/
def alnumClass : Regex Char :=
  .cls fun c => charRange 'a' 'z' c || charRange 'A' 'Z' c || charRange '0' '9' c

/-- `(?:-?r)*` -/
def dashedRun (r : Regex Char) : Regex Char := .star (.seq (.opt (.char '-')) r)

/-- `almostValidName`: `[a-z0-9-]*[a-z][a-z0-9-]*`. -/
def almostValidName : Regex Char :=
  let nameChar : Regex Char := .cls fun c => charRange 'a' 'z' c || charRange '0' '9' c || c = '-'
  .seq (.star nameChar) (.seq lowerClass (.star nameChar))

/-- `validInstanceKey`: `[a-z0-9]{1,10}`. -/
def validInstanceKey : Regex Char := .seq lowerDigitClass (lowerDigitClass.upTo 9)

/-- `validHook`: `[a-z](?:-?[a-z0-9])*`. -/
def validHook : Regex Char := .seq lowerClass (dashedRun lowerDigitClass)

/-- `ValidApp`: `[a-zA-Z0-9](?:-?[a-zA-Z0-9])*`. -/
def validApp : Regex Char := .seq alnumClass (dashedRun alnumClass)

/-- `strings.Cut` at the first `sep`. -/
def cut (s : List Char) (sep : Char) : Option (List Char × List Char) :=
  match s.idxOf? sep with
  | none => none
  | some i => some (s.take i, s.drop (i + 1))

def isValidName (name : List Char) : Bool :=
  almostValidName.rmatch name &&
    !(name.head? = some '-' || name.getLast? = some '-' || decide (['-', '-'] <:+: name))

/-- `ValidateSnap`: two to forty characters, and a valid name. -/
def validateSnap (name : List Char) : Except String Unit :=
  if name.length < 2 ∨ name.length > 40 ∨ !isValidName name then
    .error ("invalid snap name: " ++ quoted name)
  else .ok ()

/-- `ValidateInstance`: a snap name, and an instance key after the first `_` if there is one. -/
def validateInstance (instanceName : List Char) : Except String Unit :=
  match cut instanceName '_' with
  | none => validateSnap instanceName
  | some (storeName, instanceKey) => do
    validateSnap storeName
    if !validInstanceKey.rmatch instanceKey then
      .error ("invalid instance key: " ++ quoted instanceKey)
    else .ok ()

/-- `ValidateQuotaGroup`: the rules of snap names, each with its own error. -/
def validateQuotaGroup (grp : List Char) : Except String Unit :=
  if grp = [] then .error "invalid quota group name: must not be empty"
  else if grp.length < 2 ∨ grp.length > 40 then
    .error "invalid quota group name: must be between 2 and 40 characters long"
  else if !almostValidName.rmatch grp then
    .error ("invalid quota group name: contains invalid characters (valid names start with a " ++
      "letter and are otherwise alphanumeric with dashes)")
  else if grp.head? = some '-' ∨ grp.getLast? = some '-' ∨ ['-', '-'] <:+: grp then
    .error "invalid quota group name: has invalid \"-\" sequences in it"
  else .ok ()

def validateHook (name : List Char) : Except String Unit :=
  if !validHook.rmatch name then .error ("invalid hook name: " ++ quoted name) else .ok ()

def validateApp (n : List Char) : Except String Unit :=
  if !validApp.rmatch n then .error ("invalid app name: " ++ quoted n) else .ok ()

end Snapd.Naming
