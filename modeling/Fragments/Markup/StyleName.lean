import Fragments.Data.Value
import Fragments.Number.Reading
import Fragments.Text.Blank
import Fragments.Text.Case

namespace Fragments

structure StyleName where
  attributes : List (String × Bool)
  color : Option String
  background : Option String
  link : Option String
  deriving DecidableEq, Inhabited

namespace StyleName

def plain : StyleName := ⟨[], none, none, none⟩

def attributeSpellings : List (String × List String) :=
  [("bold", ["b"]), ("dim", ["d"]), ("italic", ["i"]), ("underline", ["u"]),
    ("blink", []), ("blink2", []), ("reverse", ["r"]), ("conceal", ["c"]),
    ("strike", ["s"]), ("underline2", ["uu"]), ("frame", []), ("encircle", []),
    ("overline", ["o"])]

def attribute? (word : String) : Option String :=
  (attributeSpellings.find? fun (name, others) => name == word ||
    others.contains word).map
    Prod.fst

def colorNames : List String :=
  ["black", "red", "green", "yellow", "blue", "magenta", "cyan", "white",
    "bright_black",
   "bright_red", "bright_green", "bright_yellow", "bright_blue",
   "bright_magenta", "bright_cyan", "bright_white", "grey0", "gray0",
   "navy_blue", "dark_blue", "blue3", "blue1", "dark_green", "deep_sky_blue4",
   "dodger_blue3", "dodger_blue2", "green4", "spring_green4", "turquoise4",
   "deep_sky_blue3", "dodger_blue1", "green3", "spring_green3", "dark_cyan",
   "light_sea_green", "deep_sky_blue2", "deep_sky_blue1", "spring_green2",
   "cyan3", "dark_turquoise", "turquoise2", "green1", "spring_green1",
   "medium_spring_green", "cyan2", "cyan1", "dark_red", "deep_pink4", "purple4",
   "purple3", "blue_violet", "orange4", "grey37", "gray37", "medium_purple4",
   "slate_blue3", "royal_blue1", "chartreuse4", "dark_sea_green4",
   "pale_turquoise4", "steel_blue", "steel_blue3", "cornflower_blue",
   "chartreuse3", "cadet_blue", "sky_blue3", "steel_blue1", "pale_green3",
   "sea_green3", "aquamarine3", "medium_turquoise", "chartreuse2", "sea_green2",
   "sea_green1", "aquamarine1", "dark_slate_gray2", "dark_magenta",
   "dark_violet", "purple", "light_pink4", "plum4", "medium_purple3",
   "slate_blue1", "yellow4", "wheat4", "grey53", "gray53", "light_slate_grey",
   "light_slate_gray", "medium_purple", "light_slate_blue", "dark_olive_green3",
   "dark_sea_green", "light_sky_blue3", "sky_blue2", "dark_sea_green3",
   "dark_slate_gray3", "sky_blue1", "chartreuse1", "light_green", "pale_green1",
   "dark_slate_gray1", "red3", "medium_violet_red", "magenta3", "dark_orange3",
   "indian_red", "hot_pink3", "medium_orchid3", "medium_orchid",
   "medium_purple2", "dark_goldenrod", "light_salmon3", "rosy_brown", "grey63",
   "gray63", "medium_purple1", "gold3", "dark_khaki", "navajo_white3", "grey69",
   "gray69", "light_steel_blue3", "light_steel_blue", "yellow3",
   "dark_sea_green2", "light_cyan3", "light_sky_blue1", "green_yellow",
   "dark_olive_green2", "dark_sea_green1", "pale_turquoise1", "deep_pink3",
   "magenta2", "hot_pink2", "orchid", "medium_orchid1", "orange3",
   "light_pink3", "pink3", "plum3", "violet", "light_goldenrod3", "tan",
   "misty_rose3", "thistle3", "plum2", "khaki3", "light_goldenrod2",
   "light_yellow3", "grey84", "gray84", "light_steel_blue1", "yellow2",
   "dark_olive_green1", "honeydew2", "light_cyan1", "red1", "deep_pink2",
   "deep_pink1", "magenta1", "orange_red1", "indian_red1", "hot_pink",
   "dark_orange", "salmon1", "light_coral", "pale_violet_red1", "orchid2",
   "orchid1", "orange1", "sandy_brown", "light_salmon1", "light_pink1", "pink1",
   "plum1", "gold1", "navajo_white1", "misty_rose1", "thistle1", "yellow1",
   "light_goldenrod1", "khaki1", "wheat1", "cornsilk1", "grey100", "gray100",
   "grey3", "gray3", "grey7", "gray7", "grey11", "gray11", "grey15", "gray15",
   "grey19", "gray19", "grey23", "gray23", "grey27", "gray27", "grey30",
   "gray30", "grey35", "gray35", "grey39", "gray39", "grey42", "gray42",
   "grey46", "gray46", "grey50", "gray50", "grey54", "gray54", "grey58",
   "gray58", "grey62", "gray62", "grey66", "gray66", "grey70", "gray70",
   "grey74", "gray74", "grey78", "gray78", "grey82", "gray82", "grey85",
   "gray85", "grey89", "gray89", "grey93", "gray93"]

def isHexDigit (c : Char) : Bool := c.isDigit || ('a' ≤ c && c ≤ 'f')

def inParentheses? (opening : String) (word : List Char) : Option (List Char) :=
  if opening.toList.isPrefixOf word && word.getLast? == some ')' then
    some (word.drop opening.length).dropLast
  else none

def isHexColor : List Char → Bool
  | '#' :: digits => digits.length == 6 && digits.all isHexDigit
  | _ => false

def isNumberedColor (word : List Char) : Bool :=
  match inParentheses? "color(" word with
  | some digits =>
      !digits.isEmpty && digits.length ≤ 3 && digits.all Char.isDigit &&
        Number.ofDigits 10 (digits.filterMap Number.digit?) ≤ 255
  | none => false

/-- Whether the three parts of a colour are bytes. They are read as numbers
before that is asked, which an empty one is not. -/
def isTriple (parts : List Char) : Except Fault Bool :=
  if parts.isEmpty || !parts.all fun c => (Number.digit? c).isSome ||
    c == ',' then
      .ok false
  else
    match Text.splitAt (· == ',') parts with
    | [red, green, blue] => do
        let bytes ← [red, green, blue].mapM fun part =>
          Number.readInteger 10 (String.ofList part)
        .ok (bytes.all (· ≤ 255))
    | _ => .ok false

def isColor (word : String) : Except Fault Bool :=
  let chars := word.toList
  if word == "default" || colorNames.contains word || isHexColor chars ||
      isNumberedColor chars then .ok true
  else
    match inParentheses? "rgb(" chars with
    | some parts => isTriple parts
    | none => .ok false

def words (text : String) : List String :=
  (((Text.splitAt Text.isBlank text.toList).filter fun word =>
    !word.isEmpty).map String.ofList)

def withAttribute (style : StyleName) (name : String) (on : Bool) : StyleName :=
  { style with attributes := Entries.assign (· == ·) name on style.attributes }

/-- The style that words name, if they name one. -/
def ofWords (style : StyleName) : List String → Except Fault (Option StyleName)
  | [] => .ok (some style)
  | word :: rest =>
      let key := Text.lower word
      if key == "on" then
        match rest with
        | color :: rest => do
            if ← isColor (Text.lower color) then
              ofWords { style with background := some (Text.lower color) } rest
            else .ok none
        | [] => .ok none
      else if key == "not" then
        match rest with
        | name :: rest =>
            match attribute? name with
            | some name => ofWords (style.withAttribute name false) rest
            | none => .ok none
        | [] => .ok none
      else if key == "link" then
        match rest with
        | target :: rest => ofWords { style with link := some target } rest
        | [] => .ok none
      else
        match attribute? key with
        | some name => ofWords (style.withAttribute name true) rest
        | none => do
            if ← isColor key then ofWords { style with color := some key } rest
            else .ok none

def ofText (text : String) : Except Fault (Option StyleName) :=
  match words text with
  | ["none"] => .ok (some plain)
  | words => ofWords plain words

def toWords (style : StyleName) : List String :=
  let attributes := attributeSpellings.filterMap fun (name, _) =>
    (Entries.get? style.attributes name).map fun on => if on then name
      else s!"not {name}"
  let words := attributes ++ style.color.toList ++
    (style.background.toList.flatMap fun color => ["on", color]) ++
    (style.link.toList.flatMap fun target => ["link", target])
  if words.isEmpty then ["none"] else words

def normalise (text : String) : Except Fault String := do
  match ← ofText text with
  | some style => .ok (" ".intercalate style.toWords)
  | none => .ok (Text.lower (Text.trim text))

end StyleName

end Fragments
