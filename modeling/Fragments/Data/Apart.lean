import Fragments.Data.Value

namespace Fragments.Value

mutual

/-- Puts `whole` in the places that refer back to `label`. -/
def tie (label : Nat) (whole : Value) : Value → Value
  | scalar value => scalar value
  | list own items => list own (tieItems label whole items)
  | mapping own entries => mapping own (tieEntries label whole entries)
  | set own elements => set own elements
  | pair first second => pair (tie label whole first) (tie label whole second)
  | back target => if target = label then whole else back target

def tieItems (label : Nat) (whole : Value) : List Value → List Value
  | [] => []
  | item :: rest => tie label whole item :: tieItems label whole rest

def tieEntries (label : Nat) (whole : Value) :
    List (Scalar × Value) → List (Scalar × Value)
  | [] => []
  | (key, value) :: rest =>
      (key, tie label whole value) :: tieEntries label whole rest

end

mutual

/-- Puts a reference in place of each container that stands inside itself;
`above` are the labels of the containers around the value. -/
def cut (above : List Nat) : Value → Value
  | scalar value => scalar value
  | list own items =>
      match own.filter above.contains with
      | some label => back label
      | none => list own (cutItems (own.toList ++ above) items)
  | mapping own entries =>
      match own.filter above.contains with
      | some label => back label
      | none => mapping own (cutEntries (own.toList ++ above) entries)
  | set own elements => set own elements
  | pair first second => pair (cut above first) (cut above second)
  | back label => back label

def cutItems (above : List Nat) : List Value → List Value
  | [] => []
  | item :: rest => cut above item :: cutItems above rest

def cutEntries (above : List Nat) :
    List (Scalar × Value) → List (Scalar × Value)
  | [] => []
  | (key, value) :: rest => (key, cut above value) :: cutEntries above rest

end

def takenFrom (whole part : Value) : Value :=
  match whole.label? with
  | none => part
  | some label => cut [] (tie label whole part)

/-- A container whose parts have all been taken out of it, so that none needs
its label any more. -/
def apart : Value → Value
  | list own items => list none (items.map (takenFrom (list own items)))
  | mapping own entries =>
      mapping none
        (entries.map fun entry =>
          (entry.1, takenFrom (mapping own entries) entry.2))
  | other => other

end Fragments.Value
