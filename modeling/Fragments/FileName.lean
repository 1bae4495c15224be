import Fragments.Path
import Fragments.Text.Case

namespace Fragments

structure FileName where
  fileName : String
  name : String
  typeToken : Option String
  extension : String
  deriving DecidableEq, Inhabited

namespace FileName

def extensions : List (List Char) :=
  ["yaml".toList, "yml".toList, "json".toList]

/-- Whether `c` spells the lower-case letter in some case; the long s is a form
of s. -/
def spells (letter c : Char) : Bool :=
  c == letter || (Text.isUpperAscii c && c.toNat + 32 == letter.toNat) ||
    (letter == 's' && c.toNat == 0x17F)

def spellsWord : List Char → List Char → Bool
  | [], [] => true
  | letter :: word, c :: chars => spells letter c && spellsWord word chars
  | _, _ => false

def splitExtension? (chars : List Char) : Option (List Char × List Char) :=
  extensions.findSome? fun extension =>
    let stem := chars.take (chars.length - (extension.length + 1))
    match chars.drop stem.length with
    | '.' :: written =>
        if spellsWord extension written then some (stem, written) else none
    | _ => none

def splitLastDash? : List Char → Option (List Char × List Char)
  | [] => none
  | c :: rest =>
      match splitLastDash? rest with
      | some (before, after) => some (c :: before, after)
      | none => if c == '-' then some ([], rest) else none

/-- Name and type of a stem. A dash at the very end belongs to the name. -/
def splitStem (stem : List Char) : List Char × Option (List Char) :=
  match splitLastDash? stem with
  | some (name, c :: token) => (name, some (c :: token))
  | _ => (stem, none)

/-- A line feed at the end of the name is overlooked. -/
def dropFinalNewline (chars : List Char) : List Char :=
  if chars.getLast? = some '\n' then chars.dropLast else chars

def parse? (fileName : String) : Option FileName := do
  let base := (Path.ofText fileName).name
  let (stem, written) ← splitExtension? (dropFinalNewline base.toList)
  let (name, token) := splitStem stem
  if name.contains '\n' then none
  else
    some
      { fileName := base
        name := String.ofList name
        typeToken := token.map String.ofList
        extension := Text.lower (String.ofList written) }

/-- Files with these endings are sources of templates and no fragments. -/
def excludedEndings : List String := [".helm.yaml", ".helm.yml"]

def isExcluded (fileName : String) : Bool :=
  let lowered := (Text.lower fileName).toList
  excludedEndings.any fun ending => ending.toList.isSuffixOf lowered

end FileName

end Fragments
