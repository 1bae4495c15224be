import Fragments.Json.Reader
import Fragments.Proofs.Data.Outcome

namespace Fragments.Json

/-- A mistake in the text, an integer of more digits than can be read, or what
lies beyond. -/
def ReadFailure.Expected : ReadFailure → Prop
  | .syntactic _ _ => True
  | .fault found =>
      found.isBeyond = true ∨
        ∃ count, Number.digitLimit < count ∧ found = Number.tooManyDigits count

abbrev Expected (outcome : Except ReadFailure α) : Prop :=
  FailsOnly ReadFailure.Expected outcome

end Fragments.Json
