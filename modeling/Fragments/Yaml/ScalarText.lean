import Fragments.Yaml.Cursor

namespace Fragments.Yaml

open Scan

/-- What a line break followed by `breaks` folds to. -/
def fold (lineBreak : Char) (breaks : List Char) : List Char :=
  (if lineBreak != '\n' then [lineBreak] else if breaks.isEmpty then [' ']
    else []) ++ breaks

def escapeLetters : List (Char × Nat) :=
  [('0', 0), ('a', 7), ('b', 8), ('t', 9), ('\t', 9), ('n', 10), ('v', 11),
    ('f', 12), ('r', 13), ('e', 0x1B), (' ', 0x20), ('"', 0x22), ('\\', 0x5C),
    ('/', 0x2F), ('N', 0x85), ('_', 0xA0), ('L', 0x2028), ('P', 0x2029)]

def escapeLengths : List (Char × Nat) := [('x', 2), ('u', 4), ('U', 8)]

def charOfCode (code : Nat) : Scan Char :=
  if code.isValidChar then pure (Char.ofNat code)
  else if code < 0x110000 then fault (.beyond .halfCharacter)
  else if code < 0x80000000 then
    fault (.value "chr() arg not in range(0x110000)")
  else fault .overflow

def scanCode (length : Nat) : Scan Char := fun cursor =>
  match (cursor.rest.take length).mapM (Number.digitIn? 16) with
  | some digits =>
      if digits.length = length then
        (do
          let char ← charOfCode (Number.ofDigits 16 digits)
          skip length
          pure char) cursor
      else .error .malformed
  | none => .error .malformed

def scanQuotedBreaks : Nat → Scan (List Char)
  | 0 => pure []
  | fuel + 1 => do
      if ← atSeparator then malformed
      else
        let _ ← run fun c => c == ' ' || c == '\t'
        match ← lineBreak with
        | some char => do
            let rest ← scanQuotedBreaks fuel
            pure (char :: rest)
        | none => pure []

def scanEscape : Scan (List Char) := do
  let c ← peek 1
  match escapeLetters.lookup c, escapeLengths.lookup c with
  | some code, _ => do
      skip 2
      pure [Char.ofNat code]
  | none, some length => do
      skip 2
      let char ← scanCode length
      pure [char]
  | none, none =>
      if isBreak c then do
        skip 1
        let _ ← lineBreak
        scanQuotedBreaks (← remaining)
      else malformed

def isQuotedBlank (c : Char) : Bool := c == ' ' || c == '\t'

def isQuotedPlain (c : Char) : Bool :=
  !(c == '\'' || c == '"' || c == '\\' || c == ' ' || c == '\t' || endsLine c)

def scanQuotedBlanks : Scan (List Char) := do
  let blanks ← run isQuotedBlank
  if (← peek 0) == endMark then malformed
  else
    match ← lineBreak with
    | some char => do
        let breaks ← scanQuotedBreaks (← remaining)
        pure (fold char breaks)
    | none => pure blanks

def scanQuotedBody (double : Bool) : Nat → Scan (List Char)
  | 0 => malformed
  | fuel + 1 => do
      let c ← peek 0
      let piece ←
        if isQuotedPlain c then run isQuotedPlain
        else if c == '\'' && !double && (← peek 1) == '\'' then do
          skip 2
          pure ['\'']
        else if (c == '\'' && double) ||
          ((c == '"' || c == '\\') && !double) then do
            skip 1
            pure [c]
        else if c == '\\' then scanEscape
        else if c == '\'' || c == '"' then pure []
        else scanQuotedBlanks
      if (c == '\'' && !double && piece.isEmpty) ||
        (c == '"' && double) then pure []
      else
        let rest ← scanQuotedBody double fuel
        pure (piece ++ rest)

def scanQuoted (double : Bool) : Scan String := do
  skip 1
  let body ← scanQuotedBody double ((← remaining) + 1)
  skip 1
  pure (String.ofList body)

/-- What happens to the line breaks at the end: all stay, none stays, or the
first does. -/
inductive Chomping
  | keep
  | strip
  | clip
  deriving DecidableEq

structure BlockHeader where
  chomping : Chomping
  increment : Option Nat

def scanChomping : Scan (Option Chomping) := do
  let c ← peek 0
  if c == '+' then
    skip 1
    pure (some .keep)
  else if c == '-' then
    skip 1
    pure (some .strip)
  else pure none

def scanIncrement : Scan (Option Nat) := do
  let c ← peek 0
  if c == '0' then malformed
  else if '1' ≤ c && c ≤ '9' then
    skip 1
    pure (some (c.toNat - '0'.toNat))
  else pure none

def scanBlockHeader : Scan BlockHeader := do
  let before ← scanChomping
  let increment ← scanIncrement
  let after ← if before.isNone && increment.isSome then scanChomping
      else pure none
  expect endsWord
  skipSpaces
  skipComment
  expect endsLine
  let _ ← lineBreak
  pure ⟨(before.or after).getD .clip, increment⟩

def scanIndentation : Nat → Nat → Scan (List Char × Nat)
  | 0, deepest => pure ([], deepest)
  | fuel + 1, deepest => do
      if (← peek 0) == ' ' then
        skip 1
        scanIndentation fuel (max deepest (← column))
      else
        match ← lineBreak with
        | some char => do
            let (rest, reached) ← scanIndentation fuel deepest
            pure (char :: rest, reached)
        | none => pure ([], deepest)

def skipToColumn (target : Nat) : Nat → Scan Unit
  | 0 => pure ()
  | fuel + 1 => do
      if (← column) < target && (← peek 0) == ' ' then
        skip 1
        skipToColumn target fuel

def scanBlockBreaks (indent : Nat) : Nat → Scan (List Char)
  | 0 => pure []
  | fuel + 1 => do
      skipToColumn indent indent
      match ← lineBreak with
      | some char => do
          let rest ← scanBlockBreaks indent fuel
          pure (char :: rest)
      | none => pure []

/-- What stands between two lines of a block scalar, before the empty lines
between them. -/
def foldedBreak (folded blankStart nextBlank : Bool) (lineBreak : Option Char)
    (breaks : List Char) : List Char :=
  if folded && lineBreak == some '\n' && !blankStart && !nextBlank then
    if breaks.isEmpty then [' '] else []
  else lineBreak.toList

def scanBlockLines (folded : Bool) (chomping : Chomping) (indent : Nat) :
    Nat → List Char → Option Char → Scan (List Char)
  | 0, _, _ => pure []
  | fuel + 1, breaks, last => do
      let c ← peek 0
      if (← column) == indent && c != endMark then
        let line ← run fun c => !endsLine c
        let lineBreak ← lineBreak
        let after ← scanBlockBreaks indent ((← remaining) + 1)
        let next ← peek 0
        let between :=
          if (← column) == indent && next != endMark then
            foldedBreak folded (isQuotedBlank c)
              (isQuotedBlank next) lineBreak after
          else []
        let rest ← scanBlockLines folded chomping indent fuel after lineBreak
        pure (breaks ++ line ++ between ++ rest)
      else
        pure <|
          match chomping with
          | .strip => []
          | .clip => last.toList
          | .keep => last.toList ++ breaks

def scanBlock (folded : Bool) (parent : Int) : Scan String := do
  skip 1
  let header ← scanBlockHeader
  let least := max 1 (parent + 1).toNat
  let (breaks, indent) ←
    match header.increment with
    | none => do
        let (breaks, deepest) ← scanIndentation ((← remaining) + 1) 0
        pure (breaks, max least deepest)
    | some increment => do
        let indent := least + increment - 1
        let breaks ← scanBlockBreaks indent ((← remaining) + 1)
        pure (breaks, indent)
  let text ← scanBlockLines folded header.chomping indent
      ((← remaining) + 1) breaks none
  pure (String.ofList text)

def isFlowMark (c : Char) : Bool :=
  c == ',' || c == '[' || c == ']' || c == '\x7b' || c == '\x7d'

/-- How many of the characters belong to a plain word; `flow` says whether
brackets enclose it. -/
def plainLength (flow : Bool) : List Char → Nat
  | [] => 0
  | c :: rest =>
      let next := rest.headD endMark
      if endsToken c ||
        (c == ':' && (endsToken next || (flow && isFlowMark next))) ||
        (flow && (isFlowMark c || c == '?')) then 0
      else plainLength flow rest + 1

def scanPlainBreaks : Nat → Scan (Option (List Char))
  | 0 => pure (some [])
  | fuel + 1 => do
      if ← atSeparator then pure none
      else
        skipSpaces
        match ← lineBreak with
        | some char => do
            let rest ← scanPlainBreaks fuel
            pure (rest.map (char :: ·))
        | none => pure (some [])

/-- What is between two words of a plain scalar, and whether it held a line
break. Nothing means that no word can follow. -/
def scanPlainBlanks : Scan (List Char × Bool) := do
  let blanks ← run (· == ' ')
  match ← lineBreak with
  | some char => do
      match ← scanPlainBreaks ((← remaining) + 1) with
      | some breaks => pure (fold char breaks, true)
      | none => pure ([], true)
  | none => pure (blanks, false)

/-- A plain scalar from its next word on, after `blanks`, and whether a line
break followed it. -/
def scanPlainFrom (flow : Bool) (indent : Int) :
    Nat → List Char → Bool → Scan (List Char × Bool)
  | 0, _, broken => pure ([], broken)
  | fuel + 1, blanks, broken => do
      let word := plainLength flow (← get).rest
      if (← peek 0) == '#' || word == 0 then pure ([], broken)
      else
        let text := (← get).rest.take word
        skip word
        let (spaces, brokenAfter) ← scanPlainBlanks
        if spaces.isEmpty || (← peek 0) == '#' ||
          (!flow && ((← column) : Int) < indent) then
            pure (blanks ++ text, brokenAfter)
        else
          let (rest, last) ← scanPlainFrom flow indent fuel spaces brokenAfter
          pure (blanks ++ text ++ rest, last)

def scanPlain (flow : Bool) (parent : Int) : Scan (String × Bool) := do
  let (text, broken) ← scanPlainFrom flow (parent + 1)
      ((← remaining) + 1) [] false
  pure (String.ofList text, broken)

end Fragments.Yaml
