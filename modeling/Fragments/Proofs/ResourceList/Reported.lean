import Fragments.Proofs.Disk
import Fragments.Proofs.Enrichment.Refusals
import Fragments.Proofs.Json.Faults
import Fragments.Proofs.ResourceList.Order
import Fragments.Proofs.Yaml.Faults

namespace Fragments

namespace FragmentFile

variable {disk : Disk} {path : Path} {extension : String} {chars : List Char}
  {fault : Fault}

end FragmentFile

namespace Enrichment

variable {fragment : Fragment} {file : FileName} {appName : String}
  {versioning : Versioning} {registry : Registry}

end Enrichment

namespace ResourceList

variable {setting : Setting} {path : Path} {file : FileName} {fault : Fault}

/-- What a file holds, or is called, that no handler of a build expects. -/
inductive Strays (setting : Setting) (path : Path) (file : FileName) :
    Fault → Prop
  /-- The path cannot be opened at all. -/
  | name (hzero : Char.ofNat 0 ∈ path.text.toList) :
      Strays setting path file (.value "embedded null byte")
  /-- A JSON text holds an integer of too many digits. -/
  | integer {chars : List Char} {count : Nat}
      (hchars : FragmentFile.readText setting.disk path = .ok chars)
      (hformat : FragmentFile.isJson file.extension = true)
      (hblank : chars.all Text.isBlank = false)
      (hread : Json.read chars = .error (.fault (Number.tooManyDigits count)))
      (hcount : Number.digitLimit < count) :
      Strays setting path file (Number.tooManyDigits count)
  /-- A YAML text cannot be cut into tokens, or a scalar of it is no value of
  the kind of its node. -/
  | yaml {chars : List Char} {fault : Fault}
      (hchars : FragmentFile.readText setting.disk path = .ok chars)
      (hformat : FragmentFile.isJson file.extension = false)
      (hread : Yaml.read chars = .error (.fault fault))
      (hfaults : Yaml.Faults chars fault) :
      Strays setting path file fault
  /-- The declared kind holds an integer that is too long to be shown. -/
  | kind {fragment : Fragment} {given : String} {declared : Value}
      (hfragment : FragmentFile.read setting.disk path (some file.extension) =
        .ok fragment)
      (hgiven : Enrichment.kindOfFileName
        (Enrichment.context file setting.defaultName setting.versioning
          setting.registry) = .ok (some given))
      (hdeclared : fragment.present? "kind" = some declared)
      (htext : ∀ text, declared ≠ .text text)
      (hshown : declared.display = .error Number.tooLongToWrite) :
      Strays setting path file Number.tooLongToWrite
  /-- The metadata hold an integer that is too long to become a text. -/
  | metadata {fragment enriched : Fragment}
      (hfragment : FragmentFile.read setting.disk path (some file.extension) =
        .ok fragment)
      (henrich : Enrichment.enrich fragment file setting.defaultName
        setting.versioning setting.registry = (enriched, none))
      (hlong : Resource.hasTooLong enriched = true) :
      Strays setting path file Number.tooLongToWrite

end ResourceList
end Fragments
