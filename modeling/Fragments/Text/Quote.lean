import Fragments.Text.Blank
import Fragments.Text.Case
import Fragments.Text.PrintableTable

namespace Fragments.Text

def isPrintable (c : Char) : Bool :=
  if c.toNat < 128 then 32 ≤ c.toNat && c.toNat < 127
  else !inRanges unprintableRanges c.toNat

def quoteChar (mark c : Char) : String :=
  if c == mark || c == '\\' then String.ofList ['\\', c]
  else if c == '\t' then "\\t"
  else if c == '\n' then "\\n"
  else if c == '\r' then "\\r"
  else if isPrintable c then c.toString
  else if c.toNat < 0x100 then "\\x" ++ hex 2 c.toNat
  else if c.toNat < 0x10000 then "\\u" ++ hex 4 c.toNat
  else "\\U" ++ hex 8 c.toNat

/-- Single quotes, unless the text holds some and no double ones. -/
def quoteMark (chars : List Char) : Char :=
  if chars.contains '\'' && !chars.contains '"' then '"' else '\''

def quote (text : String) : String :=
  let chars := text.toList
  let mark := quoteMark chars
  mark.toString ++ String.join (chars.map (quoteChar mark)) ++ mark.toString

def quoteByte (mark : Char) (byte : UInt8) : String :=
  let c := Char.ofNat byte.toNat
  if c == mark || c == '\\' then String.ofList ['\\', c]
  else if c == '\t' then "\\t"
  else if c == '\n' then "\\n"
  else if c == '\r' then "\\r"
  else if 32 ≤ byte.toNat && byte.toNat < 127 then c.toString
  else "\\x" ++ hex 2 byte.toNat

def quoteBytes (bytes : List UInt8) : String :=
  let mark := quoteMark (bytes.map fun byte => Char.ofNat byte.toNat)
  "b" ++ mark.toString ++ String.join (bytes.map (quoteByte mark)) ++
    mark.toString

end Fragments.Text
