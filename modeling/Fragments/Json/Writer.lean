import Fragments.Json.Tree

namespace Fragments.Json

def escapeChar (c : Char) : List Char :=
  if c == '"' then ['\\', '"']
  else if c == '\\' then ['\\', '\\']
  else if c == '\n' then ['\\', 'n']
  else if c == '\r' then ['\\', 'r']
  else if c == '\t' then ['\\', 't']
  else if c.toNat = 8 then ['\\', 'b']
  else if c.toNat = 12 then ['\\', 'f']
  else if c.toNat < 0x20 then '\\' :: 'u' :: (Text.hex 4 c.toNat).toList
  else [c]

def writeString (text : String) : String :=
  String.ofList ('"' :: text.toList.flatMap escapeChar ++ ['"'])

def writeFloat : Binary64 → String
  | .nan => "NaN"
  | .infinite negative => if negative then "-Infinity" else "Infinity"
  | finite => finite.text

def newline (depth : Nat) : String :=
  String.ofList ('\n' :: List.replicate (2 * depth) ' ')

def layOut (opening closing : String) (depth : Nat)
    (items : List String) : String :=
  if items.isEmpty then opening ++ closing
  else
    opening ++ newline (depth + 1) ++
      ("," ++ newline (depth + 1)).intercalate items ++ newline depth ++ closing

mutual

def layAt (depth : Nat) : Json → String
  | null => "null"
  | bool value => if value then "true" else "false"
  | int value => toString value
  | float value => writeFloat value
  | text value => writeString value
  | array items => layOut "[" "]" depth (layItems (depth + 1) items)
  | object entries => layOut "\x7b" "\x7d" depth (layFields (depth + 1) entries)

def layItems (depth : Nat) : List Json → List String
  | [] => []
  | item :: rest => layAt depth item :: layItems depth rest

def layFields (depth : Nat) : List (String × Json) → List String
  | [] => []
  | (key, value) :: rest =>
      (writeString key ++ ": " ++ layAt depth value) :: layFields depth rest

end

def write (value : Json) : Except Fault String :=
  if value.fits then .ok (layAt 0 value) else .error Number.tooLongToWrite

end Fragments.Json
