import Fragments.Text.Utf8
import Fragments.Yaml.Cursor

namespace Fragments.Yaml

inductive Directive
  /-- The version of the language, by its first number. -/
  | version (major : Nat)
  /-- What a handle at the front of a tag stands for. -/
  | handle (name meaning : String)
  | other
  deriving DecidableEq

inductive Token
  | directive (directive : Directive)
  | documentStart
  | documentEnd
  | streamEnd
  | blockSequenceStart
  | blockMappingStart
  | blockEnd
  | flowSequenceStart
  | flowSequenceEnd
  | flowMappingStart
  | flowMappingEnd
  | key
  | value
  | blockEntry
  | flowEntry
  | alias (name : String)
  | anchor (name : String)
  | tag (handle : Option String) (suffix : String)
  | scalar (text : String) (plain : Bool)
  deriving DecidableEq

open Scan

def endsAnchor (c : Char) : Bool :=
  endsToken c || c == '?' || c == ':' || c == ',' || c == ']' || c == '\x7d' ||
    c == '%' || c == '@' || c.toNat == 0x60

def scanName : Scan String := do
  skip 1
  let name ← run1 isNameChar
  expect endsAnchor
  pure (String.ofList name)

def isTagChar (c : Char) : Bool :=
  (isNameChar c) || ";/?:@&=+$,.!~*'()[]".toList.contains c

def scanTagBytes : Nat → Scan (List UInt8)
  | 0 => pure []
  | fuel + 1 => do
      if (← peek 0) == '%' then
        match Number.digitIn? 16 (← peek 1), Number.digitIn? 16 (← peek 2) with
        | some high, some low => do
            skip 3
            let rest ← scanTagBytes fuel
            pure (UInt8.ofNat (high * 16 + low) :: rest)
        | _, _ => malformed
      else pure []

def scanTagText : Nat → Scan (List Char)
  | 0 => pure []
  | fuel + 1 => do
      let plain ← run isTagChar
      if (← peek 0) == '%' then
        match Utf8.decode (← scanTagBytes (← remaining)) with
        | .error _ => malformed
        | .ok decoded => do
            let rest ← scanTagText fuel
            pure (plain ++ decoded ++ rest)
      else pure plain

def scanTagText1 : Scan String := do
  let before ← remaining
  let text ← scanTagText (before + 1)
  if (← remaining) == before then malformed else pure (String.ofList text)

def scanHandle : Scan String := do
  expect (· == '!')
  if (← peek 1) == ' ' then
    skip 1
    pure "!"
  else
    skip 1
    let name ← run isNameChar
    expect (· == '!')
    skip 1
    pure (String.ofList ('!' :: name ++ ['!']))

def usesHandle (cursor : Cursor) : Bool :=
  ((cursor.rest.drop 1).takeWhile fun c => !endsWord c).contains '!'

def scanTag : Scan Token := do
  let next ← peek 1
  let (handle, suffix) ←
    if next == '<' then do
      skip 2
      let suffix ← scanTagText1
      expect (· == '>')
      skip 1
      pure (none, suffix)
    else if endsToken next then do
      skip 1
      pure (none, "!")
    else do
      let handle ← if usesHandle (← get) then scanHandle else do
        skip 1
        pure "!"
      let suffix ← scanTagText1
      pure (some handle, suffix)
  expect endsWord
  pure (.tag handle suffix)

def scanNumber : Scan Nat := do
  let digits ← run1 fun c => '0' ≤ c && c ≤ '9'
  if digits.length > Number.digitLimit then
    fault (Number.tooManyDigits digits.length)
  else pure (Number.ofDigits 10 (digits.map fun c => c.toNat - '0'.toNat))

def scanVersion : Scan Directive := do
  skipSpaces
  let major ← scanNumber
  expect (· == '.')
  skip 1
  let _ ← scanNumber
  expect endsWord
  pure (.version major)

def scanHandleMeaning : Scan Directive := do
  skipSpaces
  let handle ← scanHandle
  expect (· == ' ')
  skipSpaces
  let meaning ← scanTagText1
  expect endsWord
  pure (.handle handle meaning)

def skipRestOfLine : Scan Unit := do
  skipSpaces
  skipComment
  expect endsLine
  let _ ← lineBreak

def scanDirective : Scan Token := do
  skip 1
  let name ← run1 isNameChar
  expect endsWord
  let directive ←
    if name == "YAML".toList then scanVersion
    else if name == "TAG".toList then scanHandleMeaning
    else do
      let _ ← run fun c => !endsLine c
      pure .other
  skipRestOfLine
  pure (.directive directive)

end Fragments.Yaml
