import Fragments.Data.Scalar

namespace Fragments.Entries

def get? [BEq κ] (entries : List (κ × ν)) (key : κ) : Option ν :=
  match entries with
  | [] => none
  | (k, v) :: rest => if k == key then some v else get? rest key

/-- Gives `key` a value: in place when an entry for it stands already, else at
the end. -/
def assign (same : κ → κ → Bool) (key : κ) (value : ν) :
    List (κ × ν) → List (κ × ν)
  | [] => [(key, value)]
  | (k, v) :: rest =>
      if same k key then (k, value) :: rest
      else (k, v) :: assign same key value rest

def ofPairs (same : κ → κ → Bool) (pairs : List (κ × ν)) : List (κ × ν) :=
  pairs.foldl (fun entries pair => assign same pair.1 pair.2 entries) []

end Fragments.Entries

namespace Fragments

/-- What a fragment file holds. A container that a document mentions in more
than one place carries the same label in all of them; a mention inside the
container itself is a reference back to it. -/
inductive Value
  | scalar (value : Scalar)
  | list (label : Option Nat) (items : List Value)
  | mapping (label : Option Nat) (entries : List (Scalar × Value))
  | set (label : Option Nat) (elements : List Scalar)
  | pair (first second : Value)
  | back (label : Nat)
  deriving Inhabited

namespace Value

def null : Value := scalar .null

def text (value : String) : Value := scalar (.text value)

def field? (entries : List (Scalar × Value)) (key : String) : Option Value :=
  Entries.get? entries (.text key)

def present? (entries : List (Scalar × Value)) (key : String) : Option Value :=
  match field? entries key with
  | some (scalar .null) => none
  | other => other

def assign (key : String) (value : Value) (entries : List (Scalar × Value)) :
    List (Scalar × Value) :=
  Entries.assign (· == ·) (.text key) value entries

/-- The entries with those of a further mapping added to them, as a dictionary
is updated. -/
def update (entries further : List (Scalar × Value)) : List (Scalar × Value) :=
  further.foldl
    (fun all entry => Entries.assign Scalar.same entry.1 entry.2 all) entries

def typeName : Value → String
  | scalar value => value.typeName
  | list _ _ => "list"
  | mapping _ _ => "dict"
  | set _ _ => "set"
  | pair _ _ => "tuple"
  | back _ => "dict"

def label? : Value → Option Nat
  | list label _ => label
  | mapping label _ => label
  | set label _ => label
  | _ => none

def isEmpty : Value → Bool
  | scalar value => value.isEmpty
  | list _ items => items.isEmpty
  | mapping _ entries => entries.isEmpty
  | set _ elements => elements.isEmpty
  | pair _ _ => false
  | back _ => false

mutual

/-- How many values lie in each other, the value itself being the first. -/
def height : Value → Nat
  | list _ items => heightOfItems items + 1
  | mapping _ entries => heightOfEntries entries + 1
  | pair first second => max (height first) (height second) + 1
  | _ => 1

def heightOfItems : List Value → Nat
  | [] => 0
  | item :: rest => max (height item) (heightOfItems rest)

def heightOfEntries : List (Scalar × Value) → Nat
  | [] => 0
  | (_, value) :: rest => max (height value) (heightOfEntries rest)

end

mutual

/-- Applies `change` to the entries of every mapping that carries `label`. -/
def changeLabelled (label : Nat)
    (change : List (Scalar × Value) → List (Scalar × Value)) :
    Value → Value
  | scalar value => scalar value
  | list own items => list own (changeLabelledItems label change items)
  | mapping own entries =>
      let inner := changeLabelledEntries label change entries
      mapping own (if own = some label then change inner else inner)
  | set own elements => set own elements
  | pair first second =>
      pair (changeLabelled label change first)
        (changeLabelled label change second)
  | back target => back target

def changeLabelledItems (label : Nat)
    (change : List (Scalar × Value) → List (Scalar × Value)) :
    List Value → List Value
  | [] => []
  | item :: rest =>
      changeLabelled label change item :: changeLabelledItems label change rest

def changeLabelledEntries (label : Nat)
    (change : List (Scalar × Value) → List (Scalar × Value)) :
    List (Scalar × Value) → List (Scalar × Value)
  | [] => []
  | (key, value) :: rest =>
      (key, changeLabelled label change value) ::
        changeLabelledEntries label change rest

end

end Value

end Fragments

namespace Fragments

/-- The mapping at the top of a fragment file. -/
structure Fragment where
  label : Option Nat
  entries : List (Scalar × Value)
  deriving Inhabited

namespace Fragment

def empty : Fragment := ⟨none, []⟩

def toValue (fragment : Fragment) : Value :=
  .mapping fragment.label fragment.entries

/-- The value of a field, null counting as absent. -/
def present? (fragment : Fragment) (key : String) : Option Value :=
  Value.present? fragment.entries key

def assign (key : String) (value : Value) (fragment : Fragment) : Fragment :=
  { fragment with entries := Value.assign key value fragment.entries }

def changeLabelled (label : Nat)
    (change : List (Scalar × Value) → List (Scalar × Value))
    (fragment : Fragment) : Fragment :=
  let inner := Value.changeLabelledEntries label change fragment.entries
  { fragment with entries := if fragment.label = some label then change inner
    else inner }

end Fragment

end Fragments
