import Fragments.Failure
import Fragments.Number.Reading

namespace Fragments.Yaml

/-- Why a text cannot be decoded: it is no document, or it holds what no value
can be. -/
inductive Trouble
  | malformed
  | fault (fault : Fault)
  deriving DecidableEq

def nestingLimit : Nat := 400

def tooNested : Trouble := .fault (.beyond .nesting)

structure Cursor where
  rest : List Char
  index : Nat
  line : Nat
  column : Nat
  deriving Inhabited

abbrev Scan := StateT Cursor (Except Trouble)

def endMark : Char := Char.ofNat 0

def isBreak (c : Char) : Bool :=
  c == '\n' || c == '\r' || c.toNat == 0x85 || c.toNat == 0x2028 ||
    c.toNat == 0x2029

def endsLine (c : Char) : Bool := c == endMark || isBreak c

def endsWord (c : Char) : Bool := c == ' ' || endsLine c

def endsToken (c : Char) : Bool := c == '\t' || endsWord c

def isNameChar (c : Char) : Bool :=
  ('0' ≤ c && c ≤ '9') || ('A' ≤ c && c ≤ 'Z') || ('a' ≤ c && c ≤ 'z') ||
    c == '-' || c == '_'

namespace Cursor

def ofChars (chars : List Char) : Cursor := ⟨chars, 0, 0, 0⟩

def peek (cursor : Cursor) (offset : Nat) : Char :=
  (cursor.rest.drop offset).headD endMark

/-- The cursor behind the next character. A byte order mark takes no column. -/
def advance (cursor : Cursor) : Cursor :=
  match cursor.rest with
  | [] => cursor
  | c :: rest =>
      if isBreak c && !(c == '\r' && rest.head? == some '\n') then
        ⟨rest, cursor.index + 1, cursor.line + 1, 0⟩
      else
        ⟨rest, cursor.index + 1, cursor.line,
          if c.toNat == 0xFEFF then cursor.column else cursor.column + 1⟩

def skip : Nat → Cursor → Cursor
  | 0, cursor => cursor
  | count + 1, cursor => skip count cursor.advance

def atMark (cursor : Cursor) (mark : Char) : Bool :=
  cursor.peek 0 == mark && cursor.peek 1 == mark && cursor.peek 2 == mark &&
    endsToken (cursor.peek 3)

def atSeparator (cursor : Cursor) : Bool :=
  cursor.atMark '-' || cursor.atMark '.'

end Cursor

namespace Scan

def malformed : Scan α := fun _ => .error .malformed

def fault (fault : Fault) : Scan α := fun _ => .error (.fault fault)

def peek (offset : Nat) : Scan Char := fun cursor =>
    .ok (cursor.peek offset, cursor)

def column : Scan Nat := fun cursor => .ok (cursor.column, cursor)

def remaining : Scan Nat := fun cursor => .ok (cursor.rest.length, cursor)

def skip (count : Nat) : Scan Unit := fun cursor => .ok ((), cursor.skip count)

def expect (p : Char → Bool) : Scan Unit := fun cursor =>
  if p (cursor.peek 0) then .ok ((), cursor) else .error .malformed

def run (p : Char → Bool) : Scan (List Char) := fun cursor =>
  let found := cursor.rest.takeWhile p
  .ok (found, cursor.skip found.length)

def run1 (p : Char → Bool) : Scan (List Char) := do
  match ← run p with
  | [] => malformed
  | found => pure found

def skipSpaces : Scan Unit := do
  let _ ← run (· == ' ')

def skipComment : Scan Unit := do
  if (← peek 0) == '#' then
    let _ ← run fun c => !endsLine c

/-- Reads a line break. Those of every system count as a line feed; the
separators of lines and paragraphs stay. -/
def lineBreak : Scan (Option Char) := do
  let c ← peek 0
  if c == '\r' && (← peek 1) == '\n' then
    skip 2
    pure (some '\n')
  else if c == '\n' || c == '\r' || c.toNat == 0x85 then
    skip 1
    pure (some '\n')
  else if isBreak c then
    skip 1
    pure (some c)
  else pure none

def atSeparator : Scan Bool := fun cursor => .ok (cursor.atSeparator, cursor)

end Scan

end Fragments.Yaml
