import Fragments.Json.Writer
import Fragments.Yaml.Style

namespace Fragments.Yaml

def lineWidth : Nat := 80

/-- What has been written so far, with the column reached. `spaced` says that no
blank is needed before a mark; `fresh` that the line holds nothing but
indentation and marks of blocks. -/
structure Pen where
  out : List Char
  column : Nat
  spaced : Bool
  fresh : Bool

namespace Pen

def start : Pen := ⟨[], 0, true, true⟩

def write (chars : List Char) (pen : Pen) : Pen :=
  { pen with out := chars.reverse ++ pen.out, column :=
    pen.column + chars.length }

def newline (char : Char) (pen : Pen) : Pen := ⟨char :: pen.out, 0, true, true⟩

def indentTo (indent : Nat) (pen : Pen) : Pen :=
  let placed :=
    if !pen.fresh || indent < pen.column ||
      (pen.column == indent && !pen.spaced) then
        pen.newline '\n'
    else pen
  if placed.column < indent then
    { placed.write (List.replicate (indent - placed.column) ' ') with
      spaced := true }
  else placed

def mark (text : List Char) (apart spaced fresh : Bool) (pen : Pen) : Pen :=
  { pen.write (if pen.spaced || !apart then text else ' ' :: text) with
    spaced := spaced
    fresh := pen.fresh && fresh }

def breakTo (indent : Nat) (pen : Pen) : Pen :=
  { pen.indentTo indent with spaced := false, fresh := false }

end Pen

def runs (chars : List Char) : List (List Char) :=
  let kind := fun c : Char => if c == ' ' then 0
    else if Style.isBreak c then 1 else 2
  chars.splitBy fun a b => kind a == kind b

def mayBreak (fold : Bool) (run : List Char) (pen : Pen) : Bool :=
  fold && run == [' '] && lineWidth < pen.column

def writePlainRuns (fold : Bool) (indent : Nat) (pen : Pen) :
    List (List Char) → Pen
  | [] => pen
  | run :: rest =>
      let after := if mayBreak fold run pen then pen.breakTo indent
        else pen.write run
      writePlainRuns fold indent after rest

def writePlain (fold : Bool) (indent : Nat) (chars : List Char)
    (pen : Pen) : Pen :=
  if chars.isEmpty then pen
  else
    let apart := if pen.spaced then pen else pen.write [' ']
    writePlainRuns fold indent { apart with spaced := false, fresh := false }
      (runs chars)

def doubleQuotes (chars : List Char) : List Char :=
  chars.flatMap fun c => if c == '\'' then ['\'', '\''] else [c]

/-- A run of line breaks. A line feed at its front is written twice, for a
single one would be read as a blank. -/
def writeBreaks (indent : Nat) (breaks : List Char) (pen : Pen) : Pen :=
  let first := if breaks.head? == some '\n' then pen.newline '\n' else pen
  (breaks.foldl (fun pen char => pen.newline char) first).indentTo indent

def writeSingleRuns (fold : Bool) (indent : Nat) (first : Bool) (pen : Pen) :
    List (List Char) → Pen
  | [] => pen
  | run :: rest =>
      let after :=
        if (run.head?.map Style.isBreak).getD false then
          writeBreaks indent run pen
        else if !first && !rest.isEmpty && mayBreak fold run pen then
          pen.indentTo indent
        else pen.write (doubleQuotes run)
      writeSingleRuns fold indent false after rest

def writeSingle (fold : Bool) (indent : Nat) (chars : List Char)
    (pen : Pen) : Pen :=
  (writeSingleRuns fold indent true (pen.mark ['\''] true false false)
    (runs chars)).mark
    ['\''] false false false

def escapeNames : List (Nat × Char) :=
  [(0, '0'), (7, 'a'), (8, 'b'), (9, 't'), (10, 'n'), (11, 'v'), (12, 'f'),
    (13, 'r'), (0x1B, 'e'), (0x22, '"'), (0x5C, '\\'), (0x85, 'N'), (0xA0, '_'),
    (0x2028, 'L'), (0x2029, 'P')]

def needsEscape (c : Char) : Bool :=
  let n := c.toNat
  c == '"' || c == '\\' || n == 0x85 || n == 0x2028 || n == 0x2029 ||
    n == 0xFEFF ||
    !((0x20 ≤ n && n ≤ 0x7E) || (0xA0 ≤ n && n ≤ 0xD7FF) ||
      (0xE000 ≤ n && n ≤ 0xFFFD))

def upperHex (width n : Nat) : List Char := (Text.hex width n).toList.map
    fun c => c.toUpper

def escaped (c : Char) : List Char :=
  match escapeNames.lookup c.toNat with
  | some letter => ['\\', letter]
  | none =>
      if c.toNat ≤ 0xFF then '\\' :: 'x' :: upperHex 2 c.toNat
      else if c.toNat ≤ 0xFFFF then '\\' :: 'u' :: upperHex 4 c.toNat
      else '\\' :: 'U' :: upperHex 8 c.toNat

/-- Ends a line with a backslash. A blank at the front of the next one is kept
by another. -/
def breakDouble (indent : Nat) (next : Option Char) (pen : Pen) : Pen :=
  let moved := (pen.write ['\\']).breakTo indent
  if next == some ' ' then moved.write ['\\'] else moved

/-- Writes the characters between double quotes. `pending` is read and not yet
written, in reverse. -/
def writeDoubleFrom (fold : Bool) (indent : Nat) (pen : Pen)
    (pending : List Char) (first : Bool) :
    List Char → Pen
  | [] => pen.write pending.reverse
  | c :: rest =>
      let inside := fold && !first && !rest.isEmpty
      if needsEscape c then
        let after := (pen.write pending.reverse).write (escaped c)
        let placed :=
          if inside && lineWidth + 1 < after.column then
            breakDouble indent rest.head? after
          else after
        writeDoubleFrom fold indent placed [] false rest
      else if inside && (c == ' ' || pending.isEmpty) &&
          lineWidth < pen.column + pending.length then
        let placed := breakDouble indent (some c) (pen.write pending.reverse)
        writeDoubleFrom fold indent placed [c] false rest
      else writeDoubleFrom fold indent pen (c :: pending) false rest

def writeDouble (fold : Bool) (indent : Nat) (chars : List Char)
    (pen : Pen) : Pen :=
  (writeDoubleFrom fold indent (pen.mark ['"'] true false false)
    [] true chars).mark
    ['"'] false false false

def writeText (key : Bool) (indent : Nat) (text : String) (pen : Pen) : Pen :=
  match Style.ofText key text with
  | .plain => writePlain (!key) indent text.toList pen
  | .single => writeSingle (!key) indent text.toList pen
  | .double => writeDouble (!key) indent text.toList pen

/-- The text of a floating-point number. One with an exponent shows a point as
well. -/
def floatText (value : Binary64) : List Char :=
  match value with
  | .nan => ".nan".toList
  | .infinite negative => if negative then "-.inf".toList else ".inf".toList
  | finite =>
      let chars := finite.text.toList
      if chars.contains '.' then chars
      else chars.flatMap fun c => if c == 'e' then ['.', '0', 'e'] else [c]

def isSimpleKey (key : String) : Bool :=
  !key.isEmpty && !Style.isMultiline key.toList &&
    key.length + "!!str".length < 128

def innerIndent (indent : Option Nat) : Nat := (indent.map (· + 2)).getD 0

def itemIndent (indent : Option Nat) (afterKey : Bool) (pen : Pen) : Nat :=
  if afterKey && !pen.fresh then indent.getD 0 else innerIndent indent

mutual

def writeNode (indent : Option Nat) (afterKey : Bool) (pen : Pen) : Json → Pen
  | .null => writePlain true (indent.getD 0 + 2) "null".toList pen
  | .bool value =>
      writePlain true (indent.getD 0 + 2)
        (if value then "true" else "false").toList pen
  | .int value =>
      writePlain true (indent.getD 0 + 2) (toString value).toList pen
  | .float value => writePlain true (indent.getD 0 + 2) (floatText value) pen
  | .text value => writeText false (indent.getD 0 + 2) value pen
  | .array [] => (pen.mark ['['] true true false).mark [']'] false false false
  | .array items => writeItems (itemIndent indent afterKey pen) pen items
  | .object [] =>
      (pen.mark ['\x7b'] true true false).mark ['\x7d'] false false false
  | .object entries => writeEntries (innerIndent indent) pen entries

def writeItems (indent : Nat) (pen : Pen) : List Json → Pen
  | [] => pen
  | item :: rest =>
      let marked := (pen.indentTo indent).mark ['-'] true false true
      writeItems indent (writeNode (some indent) false marked item) rest

def writeEntries (indent : Nat) (pen : Pen) : List (String × Json) → Pen
  | [] => pen
  | (key, value) :: rest =>
      let placed := pen.indentTo indent
      let keyed :=
        if isSimpleKey key then
          (writeText true (indent + 2) key placed).mark [':'] false false false
        else
          let asked := placed.mark ['?'] true false true
          ((writeText false (indent + 2) key asked).indentTo indent).mark
            [':'] true false true
      writeEntries indent (writeNode (some indent) true keyed value) rest

end

def document (value : Json) : String :=
  String.ofList ((writeNode none false Pen.start value).indentTo 0).out.reverse

def write (value : Json) : Except Fault String :=
  if value.fits then .ok (document value) else .error Number.tooLongToWrite

end Fragments.Yaml
