import Fragments.Data.Scalar
import Fragments.Yaml.Graph

namespace Fragments.Yaml

open Number

def orTrouble : Except Fault α → Except Trouble α
  | .ok value => .ok value
  | .error fault => .error (.fault fault)

def withoutGaps (text : String) : List Char := text.toList.filter (· != '_')

/-- A total in base sixty, the parts given from the last to the first. -/
def sexagesimalInteger (base : Nat) : List Int → Int
  | [] => 0
  | digit :: rest => digit * base + sexagesimalInteger (base * 60) rest

def readUnsigned (chars : List Char) : Except Fault Int :=
  match chars with
  | [] => .error .tooShort
  | ['0'] => .ok 0
  | '0' :: 'b' :: digits => readInteger 2 (String.ofList digits)
  | '0' :: 'x' :: digits => readInteger 16 (String.ofList digits)
  | '0' :: _ => readInteger 8 (String.ofList chars)
  | _ =>
      if chars.contains ':' then do
        let parts ← (Text.splitAt (· == ':') chars).mapM fun part =>
          readInteger 10 (String.ofList part)
        .ok (sexagesimalInteger 1 parts.reverse)
      else readInteger 10 (String.ofList chars)

def signedPart : List Char → Except Fault (Bool × List Char)
  | [] => .error .tooShort
  | chars => .ok (signOf chars)

def readInt (text : String) : Except Fault Int := do
  let (negative, unsigned) ← signedPart (withoutGaps text)
  let value ← readUnsigned unsigned
  .ok (if negative then -value else value)

def sexagesimalFloat (total : Binary64) (base : Nat) :
    List Binary64 → Except Fault Binary64
  | [] => .ok total
  | digit :: rest => do
      let weight ← floatOfInteger base
      sexagesimalFloat (total.add (digit.multiply weight)) (base * 60) rest

def readUnsignedFloat (chars : List Char) : Except Fault Binary64 :=
  if chars == ".inf".toList then .ok (.infinite false)
  else if chars == ".nan".toList then .ok .nan
  else if chars.contains ':' then do
    let parts ← (Text.splitAt (· == ':') chars).mapM fun part =>
      readFloat (String.ofList part)
    sexagesimalFloat Binary64.zero 1 parts.reverse
  else readFloat (String.ofList chars)

def readFloatNode (text : String) : Except Fault Binary64 := do
  let lowered := (Text.lower (String.ofList (withoutGaps text))).toList
  let (negative, unsigned) ← signedPart lowered
  let value ← readUnsignedFloat unsigned
  .ok (if negative then value.negate else value)

def readBool (text : String) : Except Fault Bool :=
  let word := Text.lower text
  if ["yes", "true", "on"].contains word then .ok true
  else if ["no", "false", "off"].contains word then .ok false
  else .error .unknownWord

def base64Digit? (c : Char) : Option Nat :=
  if 'A' ≤ c ∧ c ≤ 'Z' then some (c.toNat - 'A'.toNat)
  else if 'a' ≤ c ∧ c ≤ 'z' then some (c.toNat - 'a'.toNat + 26)
  else if '0' ≤ c ∧ c ≤ '9' then some (c.toNat - '0'.toNat + 52)
  else if c = '+' then some 62
  else if c = '/' then some 63
  else none

/-- Decodes digits of base sixty-four: `place` of them have been read of the
current four, the last left `carry`, and `pads` equals signs stood behind it.
Other characters are passed over. -/
def base64From (place carry pads : Nat) : List Char → Option (List UInt8)
  | [] => if place = 0 then some [] else none
  | c :: rest =>
      if c = '=' then
        if 2 ≤ place then
          if 4 ≤ place + (pads + 1) then some []
          else base64From place carry (pads + 1) rest
        else base64From place carry pads rest
      else
        match base64Digit? c with
        | none => base64From place carry pads rest
        | some digit =>
            let byte := fun n : Nat => UInt8.ofNat (n % 256)
            match place with
            | 0 => base64From 1 digit 0 rest
            | 1 =>
                (base64From 2 (digit % 16) 0 rest).map
                  (byte (carry * 4 + digit / 16) :: ·)
            | 2 =>
                (base64From 3 (digit % 4) 0 rest).map
                  (byte (carry * 16 + digit / 4) :: ·)
            | _ => (base64From 0 0 0 rest).map (byte (carry * 64 + digit) :: ·)

def readBinary (text : String) : Except Trouble (List UInt8) :=
  if text.toList.any fun c => 127 < c.toNat then .error .malformed
  else
    match base64From 0 0 0 text.toList with
    | some bytes => .ok bytes
    | none => .error .malformed

def digitsOf (chars : List Char) : Nat :=
  ofDigits 10 (chars.map fun c => c.toNat - '0'.toNat)

/-- Microseconds from the digits behind a point; those past the sixth are
dropped. -/
def microseconds (fraction : List Char) : Nat :=
  let kept := fraction.take 6
  digitsOf (kept ++ List.replicate (6 - kept.length) '0')

def offsetOf (zone : Option (Option (Bool × List Char × List Char))) :
    Except Fault (Option Int) :=
  match zone with
  | none => .ok none
  | some none => .ok (some 0)
  | some (some (negative, hours, minutes)) => do
      let size : Int := digitsOf hours * 60 + digitsOf minutes
      let offset ← Moment.checkedOffset (if negative then -size else size)
      .ok (some offset)

def readTimestamp (text : String) : Except Fault Scalar :=
  match Shape.stamp? (Shape.dropFinalNewline text.toList) with
  | none => .error .noMatch
  | some ⟨year, month, day, none⟩ => do
      .ok
        (.date (← Date.checked (digitsOf year) (digitsOf month) (digitsOf day)))
  | some ⟨year, month, day, some clock⟩ => do
      let offset ← offsetOf clock.zone
      .ok
        (.moment (← Moment.checked (digitsOf year) (digitsOf month)
          (digitsOf day) (digitsOf clock.hour) (digitsOf clock.minute)
          (digitsOf clock.second)
        (microseconds clock.fraction) offset))

namespace Graph

/-- The text of a scalar node. A mapping with a lone equals sign for a key
stands for the value there. -/
def textOf (graph : Graph) : Nat → Nat → Except Trouble String
  | 0, _ => .error tooNested
  | levels + 1, i =>
      match (graph.node i).content with
      | .scalar text => .ok text
      | .sequence _ => .error .malformed
      | .mapping entries =>
          match entries.find? fun (key, _) =>
            (graph.node key).tag == .value with
          | some (_, value) => textOf graph levels value
          | none => .error .malformed

def isContainer : Tag → Bool
  | .omap => true
  | .pairs => true
  | .set => true
  | .seq => true
  | .map => true
  | _ => false

def readAtom (tag : Tag) (text : String) : Except Trouble Scalar :=
  match tag with
  | .null => .ok .null
  | .bool => orTrouble ((readBool text).map .bool)
  | .int => orTrouble ((readInt text).map .int)
  | .float => orTrouble ((readFloatNode text).map .float)
  | .binary => (readBinary text).map .bytes
  | .timestamp => orTrouble (readTimestamp text)
  | .str => .ok (.text text)
  | _ => .error .malformed

def isMapping (graph : Graph) (i : Nat) : Bool :=
  match (graph.node i).content with
  | .mapping _ => true
  | _ => false

def atom (graph : Graph) (i : Nat) : Except Trouble Scalar := do
  let tag := (graph.node i).tag
  let text ← graph.textOf nestingLimit i
  if tag == .timestamp && graph.isMapping i then .error (.fault .wrongType)
  else readAtom tag text

end Graph

end Fragments.Yaml
