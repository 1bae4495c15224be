import Fragments.Failure
import Fragments.Number.Binary64
import Fragments.Text.Quote

namespace Fragments.Number

def digitZeros : List Nat :=
  [48, 1632, 1776, 1984, 2406, 2534, 2662, 2790, 2918, 3046, 3174, 3302, 3430,
    3558, 3664, 3792, 3872, 4160, 4240, 6112, 6160, 6470, 6608, 6784, 6800,
    6992, 7088, 7232, 7248, 42528, 43216, 43264, 43472, 43504, 43600, 44016,
    65296, 66720, 68912, 69734, 69872, 69942, 70096, 70384, 70736, 70864, 71248,
    71360, 71472, 71904, 72016, 72784, 73040, 73120, 92768, 92864, 93008,
    120782, 120792, 120802, 120812, 120822, 123200, 123632, 125264, 130032]

def digit? (c : Char) : Option Nat :=
  (digitZeros.find? fun first => first ≤ c.toNat && c.toNat < first + 10).map
    (c.toNat - ·)

def digitIn? (base : Nat) (c : Char) : Option Nat :=
  let value :=
    if '0' ≤ c ∧ c ≤ '9' then c.toNat - '0'.toNat
    else if 'a' ≤ c ∧ c ≤ 'z' then c.toNat - 'a'.toNat + 10
    else if 'A' ≤ c ∧ c ≤ 'Z' then c.toNat - 'A'.toNat + 10
    else base
  if value < base then some value else none

/-- Digits and blanks of any script in their ASCII form; what is neither ends
the text with a `?`. -/
def plainChars : List Char → List Char
  | [] => []
  | c :: rest =>
      if c.toNat < 127 then c :: plainChars rest
      else if Text.isBlank c then ' ' :: plainChars rest
      else
        match digit? c with
        | some value => Char.ofNat ('0'.toNat + value) :: plainChars rest
        | none => ['?']

def isAsciiBlank (c : Char) : Bool := c == ' ' || (9 ≤ c.toNat && c.toNat ≤ 13)

def ofDigits (base : Nat) (digits : List Nat) : Nat :=
  digits.foldl (fun total digit => total * base + digit) 0

def digitRun (base : Nat) : List Char → List Nat × List Char
  | [] => ([], [])
  | c :: rest =>
      match digitIn? base c with
      | some value =>
          let (digits, after) := digitRun base rest
          (value :: digits, after)
      | none => ([], c :: rest)

def signOf : List Char → Bool × List Char
  | '-' :: rest => (true, rest)
  | '+' :: rest => (false, rest)
  | rest => (false, rest)

def isBaseMark (base : Nat) (c : Char) : Bool :=
  (base == 16 && (c == 'x' || c == 'X')) ||
    (base == 8 && (c == 'o' || c == 'O')) ||
    (base == 2 && (c == 'b' || c == 'B'))

def skipBaseMark (base : Nat) : List Char → List Char
  | '0' :: c :: rest => if isBaseMark base c then rest else '0' :: c :: rest
  | chars => chars

/-- How many decimal digits an integer may have when it is read or written. -/
def digitLimit : Nat := 4300

def tooManyDigits (count : Nat) : Fault :=
  .value ("Exceeds the limit (4300 digits) for integer string conversion: " ++
    s!"value has {count} digits; " ++
    "use sys.set_int_max_str_digits() to increase the limit")

def tooLongToWrite : Fault :=
  .value ("Exceeds the limit (4300 digits) for integer string conversion; " ++
    "use sys.set_int_max_str_digits() to increase the limit")

def shownShort (text : String) : String :=
  String.ofList ((Text.quote text).toList.take 200)

def readInteger (base : Nat) (text : String) : Except Fault Int :=
  let (negative, unsigned) :=
    signOf ((plainChars text.toList).dropWhile isAsciiBlank)
  let (digits, after) := digitRun base (skipBaseMark base unsigned)
  if base = 10 ∧ digits.length > digitLimit then
    .error (tooManyDigits digits.length)
  else if digits.isEmpty || !after.all isAsciiBlank then
    .error
      (.value s!"invalid literal for int() with base {base}: {shownShort text}")
  else
    let value : Int := ofDigits base digits
    .ok (if negative then -value else value)

def writeInteger (n : Int) : Except Fault String :=
  if (Nat.toDigits 10 n.natAbs).length > digitLimit then .error tooLongToWrite
  else .ok (toString n)

def exponentOf (chars : List Char) : Int × List Char :=
  match chars with
  | c :: rest =>
      if c == 'e' || c == 'E' then
        let (negative, unsigned) := signOf rest
        match digitRun 10 unsigned with
        | ([], _) => (0, chars)
        | (digits, after) =>
            let value : Int := ofDigits 10 digits
            (if negative then -value else value, after)
      else (0, chars)
  | [] => (0, [])

def decimalOf? (chars : List Char) : Option (Nat × Int × List Char) :=
  let (whole, afterWhole) := digitRun 10 chars
  let (fraction, afterFraction) :=
    match afterWhole with
    | '.' :: rest => digitRun 10 rest
    | rest => ([], rest)
  if whole.isEmpty && fraction.isEmpty then none
  else
    let (exponent, after) := exponentOf afterFraction
    some (ofDigits 10 (whole ++ fraction), exponent - fraction.length, after)

def unsignedFloat? (negative : Bool) (chars : List Char) : Option Binary64 :=
  let word := Text.lower (String.ofList chars)
  if word = "inf" ∨ word = "infinity" then some (.infinite negative)
  else if word = "nan" then some .nan
  else
    match decimalOf? chars with
    | some (digits, exponent, []) => some (.ofDecimal negative digits exponent)
    | _ => none

def readFloat (text : String) : Except Fault Binary64 :=
  let (negative, unsigned) :=
    signOf (Text.trimBoth isAsciiBlank (plainChars text.toList))
  match unsignedFloat? negative unsigned with
  | some value => .ok value
  | none =>
      .error (.value s!"could not convert string to float: {Text.quote text}")

def floatOfInteger (n : Int) : Except Fault Binary64 :=
  match Binary64.ofInt n with
  | .finite negative position => .ok (.finite negative position)
  | _ => .error .overflow

end Fragments.Number
