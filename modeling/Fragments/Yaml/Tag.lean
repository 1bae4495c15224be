import Fragments.Text.Blank

namespace Fragments.Yaml

inductive Tag
  | null
  | bool
  | int
  | float
  | binary
  | timestamp
  | omap
  | pairs
  | set
  | str
  | seq
  | map
  | merge
  | value
  | unknown
  deriving DecidableEq, Inhabited

namespace Tag

def standardPrefix : String := "tag:yaml.org,2002:"

def names : List (String × Tag) :=
  [("null", null), ("bool", bool), ("int", int), ("float", float),
    ("binary", binary), ("timestamp", timestamp), ("omap", omap),
    ("pairs", pairs), ("set", set), ("str", str), ("seq", seq), ("map", map),
    ("merge", merge), ("value", value)]

def ofText (text : String) : Tag :=
  (names.find? fun (name, _) => standardPrefix ++ name == text).elim
    unknown Prod.snd

end Tag

namespace Shape

def isDigit (c : Char) : Bool := '0' ≤ c && c ≤ '9'

def isDigitOrGap (c : Char) : Bool := isDigit c || c == '_'

def isBinaryDigit (c : Char) : Bool := c == '0' || c == '1' || c == '_'

def isOctalDigit (c : Char) : Bool := ('0' ≤ c && c ≤ '7') || c == '_'

def isHexDigit (c : Char) : Bool :=
  isDigitOrGap c || ('a' ≤ c && c ≤ 'f') || ('A' ≤ c && c ≤ 'F')

def isSign (c : Char) : Bool := c == '-' || c == '+'

def dropFinalNewline (chars : List Char) : List Char :=
  if chars.getLast? = some '\n' then chars.dropLast else chars

def dropSign : List Char → List Char
  | [] => []
  | c :: rest => if isSign c then rest else c :: rest

def oneOf (words : List String) (chars : List Char) : Bool :=
  words.any fun word => word.toList == chars

def isNull (chars : List Char) : Bool :=
  oneOf ["~", "null", "Null", "NULL", ""] chars

def isBool (chars : List Char) : Bool :=
  oneOf ["yes", "Yes", "YES", "no", "No", "NO", "true", "True", "TRUE", "false",
    "False", "FALSE", "on", "On", "ON", "off", "Off", "OFF"] chars

def isSixtieth : List Char → Bool
  | [c] => isDigit c
  | [c, d] => '0' ≤ c && c ≤ '5' && isDigit d
  | _ => false

def isSexagesimal (first : List Char → Bool) (chars : List Char) : Bool :=
  match Text.splitAt (· == ':') chars with
  | head :: part :: rest => first head && (part :: rest).all isSixtieth
  | _ => false

def startsNonZero (chars : List Char) : Bool :=
  match chars with
  | c :: rest => '1' ≤ c && c ≤ '9' && rest.all isDigitOrGap
  | [] => false

def nonEmptyOf (p : Char → Bool) (chars : List Char) : Bool :=
  !chars.isEmpty && chars.all p

def isInt (chars : List Char) : Bool :=
  let unsigned := dropSign chars
  (match unsigned with
  | '0' :: 'b' :: digits => nonEmptyOf isBinaryDigit digits
  | '0' :: 'x' :: digits => nonEmptyOf isHexDigit digits
  | '0' :: digits => digits.all isOctalDigit
  | digits => startsNonZero digits) ||
    isSexagesimal startsNonZero unsigned

def isExponent : List Char → Bool
  | [] => true
  | c :: sign :: digits =>
      (c == 'e' || c == 'E') && isSign sign && nonEmptyOf isDigit digits
  | _ => false

def startsDigit (chars : List Char) : Bool :=
  match chars with
  | c :: rest => isDigit c && rest.all isDigitOrGap
  | [] => false

def isFloat (chars : List Char) : Bool :=
  let unsigned := dropSign chars
  let (whole, fromPoint) := unsigned.span (· != '.')
  let afterPoint := fromPoint.drop 1
  let (fraction, exponent) := afterPoint.span isDigitOrGap
  (!fromPoint.isEmpty && startsDigit whole && isExponent exponent) ||
    (chars.head? == some '.' && startsDigit fraction && isExponent exponent) ||
    (!fromPoint.isEmpty && isSexagesimal startsDigit whole &&
      afterPoint.all isDigitOrGap) ||
    oneOf [".inf", ".Inf", ".INF"] unsigned ||
    oneOf [".nan", ".NaN", ".NAN"] chars

def takeDigits (least most : Nat) (chars : List Char) :
    Option (List Char × List Char) :=
  let digits := (chars.take most).takeWhile isDigit
  if digits.length < least then none
  else some (digits, chars.drop digits.length)

def takeChar (p : Char → Bool) : List Char → Option (List Char)
  | c :: rest => if p c then some rest else none
  | [] => none

structure Clock where
  hour : List Char
  minute : List Char
  second : List Char
  fraction : List Char
  zone : Option (Option (Bool × List Char × List Char))

structure Stamp where
  year : List Char
  month : List Char
  day : List Char
  clock : Option Clock

def isBlank (c : Char) : Bool := c == ' ' || c == '\t'

def zone? (chars : List Char) :
    Option (Option (Option (Bool × List Char × List Char))) :=
  match chars with
  | [] => some none
  | _ =>
      match chars.dropWhile isBlank with
      | ['Z'] => some (some none)
      | sign :: rest => do
          if !isSign sign then none
          let (hours, after) ← takeDigits 1 2 rest
          match after with
          | [] => some (some (some (sign == '-', hours, [])))
          | ':' :: more => do
              let (minutes, last) ← takeDigits 2 2 more
              if last.isEmpty then
                some (some (some (sign == '-', hours, minutes))) else none
          | _ => none
      | [] => none

def clock? (chars : List Char) : Option Clock := do
  let start ←
    match chars with
    | c :: rest =>
        if c == 'T' || c == 't' then some rest
        else if isBlank c then some (rest.dropWhile isBlank)
        else none
    | [] => none
  let (hour, afterHour) ← takeDigits 1 2 start
  let (minute, afterMinute) ← takeDigits 2 2 (← takeChar (· == ':') afterHour)
  let (second, afterSecond) ← takeDigits 2 2 (← takeChar (· == ':') afterMinute)
  let (fraction, rest) :=
    match afterSecond with
    | '.' :: digits => digits.span isDigit
    | _ => ([], afterSecond)
  let zone ← zone? rest
  some ⟨hour, minute, second, fraction, zone⟩

def stamp? (chars : List Char) : Option Stamp := do
  let (year, afterYear) ← takeDigits 4 4 chars
  let (month, afterMonth) ← takeDigits 1 2 (← takeChar (· == '-') afterYear)
  let (day, rest) ← takeDigits 1 2 (← takeChar (· == '-') afterMonth)
  if rest.isEmpty then some ⟨year, month, day, none⟩
  else some ⟨year, month, day, some (← clock? rest)⟩

def isTimestamp (chars : List Char) : Bool :=
  match stamp? chars with
  | some stamp =>
      stamp.clock.isSome || (stamp.month.length == 2 && stamp.day.length == 2)
  | none => false

end Shape

/-- The kind of a plain scalar, by its shape. Which shapes are tried depends on
the first character. -/
def Tag.ofPlain (text : String) : Tag :=
  let chars := text.toList
  let body := Shape.dropFinalNewline chars
  let first := chars.head?
  let among := fun letters : String => first.all letters.toList.contains
  if chars.isEmpty then .null
  else if among "yYnNtTfFoO" && Shape.isBool body then .bool
  else if among "-+0123456789." && Shape.isFloat body then .float
  else if among "-+0123456789" && Shape.isInt body then .int
  else if among "<" && body == ['<', '<'] then .merge
  else if among "~nN" && Shape.isNull body then .null
  else if among "0123456789" && Shape.isTimestamp body then .timestamp
  else if among "=" && body == ['='] then .value
  else if among "!&*" && body.length == 1 then .unknown
  else .str

end Fragments.Yaml
