import Fragments.Yaml.Cursor
import Fragments.Yaml.Tag

namespace Fragments.Yaml

inductive Style
  | plain
  | single
  | double
  deriving DecidableEq, Inhabited

namespace Style

/-- A line break as it may stand in a text that is written. A carriage return is
escaped instead. -/
def isBreak (c : Char) : Bool :=
  c == '\n' || c.toNat == 0x85 || c.toNat == 0x2028 || c.toNat == 0x2029

/-- A character that only double quotes can hold, as an escape. -/
def isSpecial (c : Char) : Bool :=
  let n := c.toNat
  !(c == '\n' || (0x20 ≤ n && n ≤ 0x7E)) &&
    !((n == 0x85 || (0xA0 ≤ n && n ≤ 0xD7FF) || (0xE000 ≤ n && n ≤ 0xFFFD) ||
      (0x10000 ≤ n && n < 0x10FFFF)) && n != 0xFEFF)

def hasNeighbours (p : Char → Char → Bool) : List Char → Bool
  | a :: b :: rest => p a b || hasNeighbours p (b :: rest)
  | _ => false

def wordEnds (rest : List Char) : Bool := endsToken (rest.headD endMark)

/-- Whether a text after its first character holds a colon that ends a word, or
a number sign that starts one; `previous` stands before it. -/
def hasMark (previous : Char) : List Char → Bool
  | [] => false
  | c :: rest =>
      (c == ':' && wordEnds rest) || (c == '#' && endsToken previous) ||
        hasMark c rest

def isLeadingMark (c : Char) : Bool :=
  "#,[]\x7b\x7d&*!|>'\"%@".toList.contains c || c.toNat == 0x60

def hasIndicator (chars : List Char) : Bool :=
  match chars with
  | [] => false
  | c :: rest =>
      "---".toList.isPrefixOf chars || "...".toList.isPrefixOf chars ||
        isLeadingMark c ||
        ((c == '?' || c == ':' || c == '-') && wordEnds rest) || hasMark c rest

def isMultiline (chars : List Char) : Bool := chars.any isBreak

def isBlankOrBreak (c : Char) : Bool := c == ' ' || isBreak c

def hasBreakBlank (chars : List Char) : Bool :=
  hasNeighbours
    (fun a b => (isBreak a && b == ' ') || (a == ' ' && isBreak b)) chars

def allowsSingle (chars : List Char) : Bool :=
  !hasBreakBlank chars && !chars.any isSpecial

def allowsPlain (chars : List Char) : Bool :=
  allowsSingle chars && !isMultiline chars && !hasIndicator chars &&
    !((chars.head?.map isBlankOrBreak).getD false) &&
    !((chars.getLast?.map isBlankOrBreak).getD false)

/-- The style for a text. A key on one line cannot be of several lines. -/
def ofText (key : Bool) (text : String) : Style :=
  let chars := text.toList
  if Tag.ofPlain text == .str && allowsPlain chars &&
    !(key && chars.isEmpty) then .plain
  else if allowsSingle chars && !(key && isMultiline chars) then .single
  else .double

end Style

end Fragments.Yaml
