import Fragments.Data.Value

namespace Fragments.Value

def enclose (opening closing : String) (parts : List String) : String :=
  opening ++ ", ".intercalate parts ++ closing

mutual

/-- The value as it is shown inside messages; `lists` are the labels of the
enclosing lists. -/
def displayIn (lists : List Nat) : Value → Except Fault String
  | scalar value => value.display
  | list label items => do
      .ok (enclose "[" "]" (← displayItems (label.toList ++ lists) items))
  | mapping _ entries => do
      .ok (enclose "\x7b" "\x7d" (← displayEntries lists entries))
  | set _ elements => do
      if elements.isEmpty then .ok "set()"
      else .ok (enclose "\x7b" "\x7d" (← elements.mapM Scalar.display))
  | pair first second => do
      .ok (enclose "(" ")" [← displayIn lists first, ← displayIn lists second])
  | back label => .ok (if lists.contains label then "[...]" else "\x7b...\x7d")

def displayItems (lists : List Nat) : List Value → Except Fault (List String)
  | [] => .ok []
  | item :: rest => do
      let shown ← displayIn lists item
      .ok (shown :: (← displayItems lists rest))

def displayEntries (lists : List Nat) :
    List (Scalar × Value) → Except Fault (List String)
  | [] => .ok []
  | (key, value) :: rest => do
      let shownKey ← key.display
      let shownValue ← displayIn lists value
      .ok ((shownKey ++ ": " ++ shownValue) :: (← displayEntries lists rest))

end

def display (value : Value) : Except Fault String := displayIn [] value

def plain : Value → Except Fault String
  | scalar value => value.plain
  | other => other.display

end Fragments.Value
