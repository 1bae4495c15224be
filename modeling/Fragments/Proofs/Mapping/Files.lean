import Fragments.Mapping.File
import Fragments.Proofs.Disk
import Fragments.Proofs.Mapping.Elements
import Fragments.Proofs.Text.Utf8
import Fragments.Proofs.Yaml.Faults

namespace Fragments

namespace MappingFile

/-- The document in a file whose bytes are UTF-8 and whose text is YAML. -/
def Reads (disk : Disk) (path : Path) (value : Value) : Prop :=
  ∃ chars, disk.read path = .ok (some (Utf8.encode chars)) ∧
    readYaml (Text.normaliseNewlines chars) = .ok value

/-- The elements under `mappings` in a document that is a mapping, none if it
has no such key. -/
inductive Lists : Value → List Value → Prop
  | absent (hfields : value.fields? = some fields)
      (hnone : Value.field? fields "mappings" = none) : Lists value []
  | present (hfields : value.fields? = some fields)
      (hheld : Value.field? fields "mappings" = some held)
      (hitems : held.items? = some items) :
      Lists value items

/-- The entries of a document. That of an empty file is null. -/
inductive Holds : Value → List MappingEntry → Prop
  | null : Holds .null []
  | listed (hitems : Lists value items)
      (hentries : List.Forall₂
        (fun item entry => MappingEntry.ofValue item = .ok entry)
          items entries) :
      Holds value entries
  /-- Whatever else is empty counts as a mapping without entries: false, zero,
  an empty text, an empty list. -/
  | bare (hempty : value.isEmpty = true) (hfields : value.fields? = none)
      (hnull : value ≠ .null) : Holds value []

/-- An element that gives an entry. -/
def Gives (item : Value) : Prop := item.IsElement ∧ ¬item.HasLongText

/-- The first element of a document that gives no entry. -/
def StopsAt (value item : Value) : Prop :=
  ∃ before after, Lists value (before ++ item :: after) ∧
    (∀ earlier ∈ before, Gives earlier) ∧ ¬Gives item

/-- What a file holds, or is called, that no handler expects. -/
inductive Strays (disk : Disk) (path : Path) : Fault → Prop
  /-- The path cannot be opened at all. -/
  | name (hzero : Char.ofNat 0 ∈ path.text.toList) :
      Strays disk path (.value "embedded null byte")
  /-- The bytes are not UTF-8. -/
  | encoding {content : List UInt8} {failure : Utf8.Failure}
      (hread : disk.read path = .ok (some content))
      (hdecode : Utf8.decode content = .error failure) :
      Strays disk path (decodingFault content)
  /-- The text cannot be cut into tokens, or a scalar of the document is no
  value of the kind of its node. -/
  | yaml (hread : disk.read path = .ok (some (Utf8.encode chars)))
      (hyaml : readYaml (Text.normaliseNewlines chars) = .error (.fault fault))
      (hfaults : Yaml.Faults (Text.normaliseNewlines chars) fault) :
      Strays disk path fault
  /-- The first element that gives no entry is a mapping that cannot be
  shown. -/
  | integer (hdocument : Reads disk path value) (hitem : StopsAt value item)
      (hfields : item.fields? = some fields) (hlong : item.HasLong) :
      Strays disk path Number.tooLongToWrite

variable {disk : Disk} {path : Path} {value item : Value} {entry : MappingEntry}
  {entries : List MappingEntry} {problem : Problem} {fault : Fault}

theorem Lists.unique {items others : List Value} (hitems : Lists value items)
    (hothers : Lists value others) : items = others := by
  cases hitems with
  | absent hfields hnone =>
      cases hothers with
      | absent => rfl
      | present hown hheld _ =>
          cases hfields.symm.trans hown
          cases hnone.symm.trans hheld
  | present hfields hheld hitems =>
      cases hothers with
      | absent hown hnone =>
          cases hfields.symm.trans hown
          cases hnone.symm.trans hheld
      | present hown hheld' hitems' =>
          cases hfields.symm.trans hown
          cases hheld.symm.trans hheld'
          exact Option.some.inj (hitems.symm.trans hitems')

end MappingFile

end Fragments
