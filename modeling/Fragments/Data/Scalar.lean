import Fragments.Calendar
import Fragments.Number.Reading
import Fragments.Number.Shortest

namespace Fragments

inductive Scalar
  | null
  | bool (value : Bool)
  | int (value : Int)
  | float (value : Binary64)
  | text (value : String)
  | bytes (value : List UInt8)
  | date (value : Date)
  | moment (value : Moment)
  deriving DecidableEq, Inhabited

namespace Scalar

def integer? : Scalar → Option Int
  | bool value => some (if value then 1 else 0)
  | int value => some value
  | _ => none

/-- Equality of keys. Numbers are equal by value whatever their kind, and a
truth value counts as zero or one. -/
def same (a b : Scalar) : Bool :=
  match a, b with
  | float x, float y => x.same y
  | float x, other => (other.integer?.map fun n => x.isInteger n).getD false
  | other, float y => (other.integer?.map fun n => y.isInteger n).getD false
  | moment x, moment y => x.same y
  | _, _ =>
      match a.integer?, b.integer? with
      | some m, some n => m == n
      | _, _ => a == b

def typeName : Scalar → String
  | null => "NoneType"
  | bool _ => "bool"
  | int _ => "int"
  | float _ => "float"
  | text _ => "str"
  | bytes _ => "bytes"
  | date _ => "date"
  | moment _ => "datetime"

def display : Scalar → Except Fault String
  | null => .ok "None"
  | bool value => .ok (if value then "True" else "False")
  | int value => Number.writeInteger value
  | float value => .ok value.text
  | text value => .ok (Text.quote value)
  | bytes value => .ok (Text.quoteBytes value)
  | date value => .ok value.display
  | moment value => .ok value.display

def plain : Scalar → Except Fault String
  | text value => .ok value
  | date value => .ok value.iso
  | moment value => .ok (value.isoWith " ")
  | other => other.display

def isEmpty : Scalar → Bool
  | null => true
  | bool value => !value
  | int value => value == 0
  | float value => value.isInteger 0
  | text value => value.isEmpty
  | bytes value => value.isEmpty
  | date _ => false
  | moment _ => false

end Scalar

end Fragments
