import Fragments.Proofs.Data.Display
import Fragments.Proofs.Mapping.Batches
import Fragments.Proofs.Yaml.Pairs

namespace Fragments

namespace Value

/-- The fields of a mapping, each on its own. -/
def fields? (value : Value) : Option (List (Scalar × Value)) :=
  match value.apart with
  | mapping _ fields => some fields
  | _ => none

/-- The items of a list, each on its own. -/
def items? (value : Value) : Option (List Value) :=
  match value.apart with
  | list _ items => some items
  | _ => none

theorem Unpaired.field {value held : Value} {fields : List (Scalar × Value)}
    {key : String} (hvalue : value.Unpaired)
    (hfields : value.fields? = some fields)
    (hheld : field? fields key = some held) : ¬held.IsPair ∧ held.Unpaired := by
  have hapart := hvalue.apart
  unfold fields? at hfields
  split at hfields
  · next heq =>
      cases hfields
      rw [heq, unpaired_mapping_iff] at hapart
      exact hapart _ (Entries.mem_of_get?_eq_some hheld)
  · cases hfields

theorem Unpaired.item {value : Value} {items : List Value}
    (hvalue : value.Unpaired) (hitems : value.items? = some items) :
    ∀ item ∈ items, item.Unpaired := by
  have hapart := hvalue.apart
  unfold items? at hitems
  split at hitems
  · next heq =>
      cases hitems
      rw [heq, unpaired_list_iff] at hapart
      exact hapart
  · cases hitems

/-- What tokens may be given as: nothing, a text or a list. -/
def IsTokens (tokens : Value) : Prop :=
  tokens = null ∨ (∃ given, tokens = text given) ∨
    ∃ items, tokens.items? = some items

/-- A mapping whose tokens, if it has any, may be given so. Its kind may be
anything. -/
def IsElement (item : Value) : Prop :=
  ∃ fields, item.fields? = some fields ∧
    ∀ tokens, field? fields "tokens" = some tokens → tokens.IsTokens

/-- The kind or a token of the mapping holds an integer that is too long to
become a text. -/
inductive HasLongText : Value → Prop
  | kind (hfields : item.fields? = some fields)
      (hkind : field? fields "kind" = some kind) (hlong : kind.HasLong) :
      HasLongText item
  | token (hfields : item.fields? = some fields)
      (htokens : field? fields "tokens" = some tokens)
      (hitems : tokens.items? = some items) (hmem : token ∈ items)
      (hlong : token.HasLong) :
      HasLongText item

end Value

namespace MappingEntry

variable {kind tokens item : Value} {entry : MappingEntry}

/-- Tokens that hold themselves. -/
example : ofValue (.mapping none [(.text "kind", .text "Foo"),
    (.text "tokens", .list (some 1) [.text "a", .back 1])]) =
    .ok ⟨"Foo", ["a", "['a', [...]]"]⟩ := by
  decide +kernel

end MappingEntry

end Fragments
