import Fragments.Data.Value

namespace Fragments

/-- JSON data: integers of any size, floating-point numbers, and objects whose
keys are in order. -/
inductive Json
  | null
  | bool (value : Bool)
  | int (value : Int)
  | float (value : Binary64)
  | text (value : String)
  | array (items : List Json)
  | object (entries : List (String × Json))
  deriving Inhabited

namespace Json

/-- Entries without repeated keys: the last value of a key, at its first
place. -/
def uniqueEntries (entries : List (String × Json)) : List (String × Json) :=
  Entries.ofPairs (· == ·) entries

def field? (key : String) : Json → Option Json
  | object entries => Entries.get? entries key
  | _ => none

mutual

def fits : Json → Bool
  | int value => Binary64.digitCount value.natAbs ≤ Number.digitLimit
  | array items => fitAll items
  | object entries => fieldsFit entries
  | _ => true

def fitAll : List Json → Bool
  | [] => true
  | item :: rest => fits item && fitAll rest

def fieldsFit : List (String × Json) → Bool
  | [] => true
  | (_, value) :: rest => fits value && fieldsFit rest

end

mutual

def toValue : Json → Value
  | null => .null
  | bool value => .scalar (.bool value)
  | int value => .scalar (.int value)
  | float value => .scalar (.float value)
  | text value => .text value
  | array items => .list none (toValues items)
  | object entries => .mapping none (toFields entries)

def toValues : List Json → List Value
  | [] => []
  | item :: rest => toValue item :: toValues rest

def toFields : List (String × Json) → List (Scalar × Value)
  | [] => []
  | (key, value) :: rest => (.text key, toValue value) :: toFields rest

end

end Json

end Fragments
