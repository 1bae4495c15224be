import Fragments.Proofs.Data.Parts
import Fragments.Proofs.Resource.Dump
import Fragments.Proofs.Text.Utf8

namespace Fragments

namespace Value

/-- An entry that a dump shows: no later one has the same text for its key. -/
inductive ShownEntry : List (Scalar × Value) → Scalar × Value → Prop
  | here (hlast : ∀ later ∈ rest,
      Resource.dumpKey later.1 ≠ Resource.dumpKey entry.1) :
      ShownEntry (entry :: rest) entry
  | there (hshown : ShownEntry rest entry) : ShownEntry (other :: rest) entry

theorem ShownEntry.mem {entries : List (Scalar × Value)}
    {entry : Scalar × Value} (hshown : ShownEntry entries entry) :
    entry ∈ entries := by
  induction hshown with
  | here => exact List.mem_cons_self
  | there _ ih => exact List.mem_cons_of_mem _ ih

end Value

namespace Resource

variable {levels : Nat}

end Resource

end Fragments
