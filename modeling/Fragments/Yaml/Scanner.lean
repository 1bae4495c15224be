import Fragments.Yaml.Lexeme
import Fragments.Yaml.ScalarText

namespace Fragments.Yaml

/-- A place where a mapping key may have started. `token` counts the tokens
before it; a required one stands where only a key can. -/
structure PossibleKey where
  token : Nat
  required : Bool
  index : Nat
  line : Nat
  column : Nat
  deriving Inhabited

/-- The state between two tokens. `tokens` is in reverse; `keys` has at most one
key for each number of brackets open. -/
structure Scanner where
  cursor : Cursor
  tokens : List Token
  count : Nat
  indent : Int
  indents : List Int
  brackets : Nat
  keyAllowed : Bool
  keys : List (Nat × PossibleKey)

namespace Scanner

def start (chars : List Char) : Scanner where
  cursor := Cursor.ofChars chars
  tokens := []
  count := 0
  indent := -1
  indents := []
  brackets := 0
  keyAllowed := true
  keys := []

def push (token : Token) (scanner : Scanner) : Scanner :=
  { scanner with tokens := token :: scanner.tokens, count := scanner.count + 1 }

def insert (place : Nat) (token : Token) (scanner : Scanner) : Scanner :=
  let later := scanner.count - place
  { scanner with
    tokens := scanner.tokens.take later ++ token :: scanner.tokens.drop later
    count := scanner.count + 1 }

def scan (step : Scan α) (scanner : Scanner) : Except Trouble (α × Scanner) :=
  match step scanner.cursor with
  | .ok (value, cursor) => .ok (value, { scanner with cursor })
  | .error trouble => .error trouble

def skip (count : Nat) (scanner : Scanner) : Scanner :=
  { scanner with cursor := scanner.cursor.skip count }

def isStale (scanner : Scanner) (key : PossibleKey) : Bool :=
  key.line != scanner.cursor.line || scanner.cursor.index - key.index > 1024

/-- Gives up the possible keys that have become stale; a required one is
missed. -/
def dropStale (scanner : Scanner) : Except Trouble Scanner :=
  if scanner.keys.any fun (_, key) => scanner.isStale key && key.required then
    .error .malformed
  else
    .ok { scanner with
      keys := scanner.keys.filter fun (_, key) => !scanner.isStale key }

def key? (scanner : Scanner) : Option PossibleKey :=
  scanner.keys.lookup scanner.brackets

def forgetKey (scanner : Scanner) : Scanner :=
  { scanner with keys := scanner.keys.filter fun (level, _) =>
    level != scanner.brackets }

def dropKey (scanner : Scanner) : Except Trouble Scanner :=
  match scanner.key? with
  | some key =>
      if key.required then .error .malformed else .ok scanner.forgetKey
  | none => .ok scanner

def noteKey (scanner : Scanner) : Except Trouble Scanner :=
  if scanner.keyAllowed then do
    let required := scanner.brackets == 0 && scanner.indent ==
      (scanner.cursor.column : Int)
    let cleared ← scanner.dropKey
    let cursor := scanner.cursor
    let key := PossibleKey.mk cleared.count required cursor.index cursor.line
      cursor.column
    .ok { cleared with keys := (cleared.brackets, key) :: cleared.keys }
  else .ok scanner

def allowKey (allowed : Bool) (scanner : Scanner) : Scanner :=
  { scanner with keyAllowed := allowed }

def unwind (column : Int) (scanner : Scanner) : Scanner :=
  if scanner.brackets == 0 then go scanner.indents scanner else scanner
where
  go : List Int → Scanner → Scanner
    | [], scanner => scanner
    | outer :: rest, scanner =>
        if column < scanner.indent then
          go rest
            ({ scanner with indent := outer, indents := rest }.push .blockEnd)
        else scanner

def isDeeper (column : Nat) (scanner : Scanner) : Bool :=
  scanner.indent < (column : Int)

def indentTo (column : Nat) (scanner : Scanner) : Scanner :=
  { scanner with indent := column, indents :=
    scanner.indent :: scanner.indents }

def openBlock (token : Token) (scanner : Scanner) : Scanner :=
  let column := scanner.cursor.column
  if scanner.isDeeper column then (scanner.indentTo column).push token
  else scanner

def skipToToken : Nat → Scanner → Except Trouble Scanner
  | 0, scanner => .ok scanner
  | fuel + 1, scanner => do
      let (found, after) ← scanner.scan do
        Scan.skipSpaces
        Scan.skipComment
        Scan.lineBreak
      match found with
      | some _ =>
          skipToToken fuel (if after.brackets == 0 then after.allowKey true
            else after)
      | none => .ok after

/-- A byte order mark counts only at the very start. -/
def skipOrderMark (scanner : Scanner) : Scanner :=
  if scanner.cursor.index == 0 && (scanner.cursor.peek 0).toNat == 0xFEFF then
    scanner.skip 1
  else scanner

def endBlocks (scanner : Scanner) : Except Trouble Scanner := do
  .ok ((← (scanner.unwind (-1)).dropKey).allowKey false)

def fetchDirective (scanner : Scanner) : Except Trouble Scanner := do
  let (token, after) ← (← scanner.endBlocks).scan scanDirective
  .ok (after.push token)

def fetchSeparator (token : Token) (scanner : Scanner) :
    Except Trouble Scanner := do
  .ok (((← scanner.endBlocks).skip 3).push token)

/-- An opening bracket may itself start a key. -/
def fetchOpening (token : Token) (scanner : Scanner) :
    Except Trouble Scanner := do
  let noted ← scanner.noteKey
  .ok
    ((({ noted with brackets := noted.brackets + 1 }.allowKey true).skip 1).push
      token)

def fetchClosing (token : Token) (scanner : Scanner) :
    Except Trouble Scanner := do
  let cleared ← scanner.dropKey
  if cleared.brackets == 0 then .error .malformed
  else
    .ok
      ((({ cleared with brackets := cleared.brackets - 1 }.allowKey false).skip
        1).push token)

def fetchFlowEntry (scanner : Scanner) : Except Trouble Scanner := do
  let cleared ← (scanner.allowKey true).dropKey
  .ok ((cleared.skip 1).push .flowEntry)

def fetchBlockEntry (scanner : Scanner) : Except Trouble Scanner := do
  if scanner.brackets == 0 && !scanner.keyAllowed then .error .malformed
  else
    let opened :=
      if scanner.brackets == 0 then scanner.openBlock .blockSequenceStart
      else scanner
    let cleared ← (opened.allowKey true).dropKey
    .ok ((cleared.skip 1).push .blockEntry)

/-- A key or a value that no possible key has announced. -/
def fetchIndicator (token : Token) (scanner : Scanner) :
    Except Trouble Scanner := do
  if scanner.brackets == 0 && !scanner.keyAllowed then .error .malformed
  else
    let opened :=
      if scanner.brackets == 0 then scanner.openBlock .blockMappingStart
      else scanner
    let cleared ← (opened.allowKey (scanner.brackets == 0)).dropKey
    .ok ((cleared.skip 1).push token)

def announce (key : PossibleKey) (scanner : Scanner) : Scanner :=
  let keyed := scanner.forgetKey.insert key.token .key
  if keyed.brackets == 0 && keyed.isDeeper key.column then
    (keyed.indentTo key.column).insert key.token .blockMappingStart
  else keyed

def fetchValue (scanner : Scanner) : Except Trouble Scanner :=
  match scanner.key? with
  | some key =>
      .ok ((((scanner.announce key).allowKey false).skip 1).push .value)
  | none => scanner.fetchIndicator .value

def fetchNode (step : Scan Token) (scanner : Scanner) :
    Except Trouble Scanner := do
  let (token, after) ← ((← scanner.noteKey).allowKey false).scan step
  .ok (after.push token)

def fetchBlockScalar (folded : Bool) (scanner : Scanner) :
    Except Trouble Scanner := do
  let cleared ← (scanner.allowKey true).dropKey
  let (text, after) ← cleared.scan (scanBlock folded cleared.indent)
  .ok (after.push (.scalar text false))

def fetchPlain (scanner : Scanner) : Except Trouble Scanner := do
  let noted ← scanner.noteKey
  let ((text, broken), after) ←
    noted.scan (scanPlain (noted.brackets != 0) noted.indent)
  .ok ((after.allowKey broken).push (.scalar text true))

def isIndicator (c : Char) : Bool :=
  "-?:,[]\x7b\x7d#&*!|>'\"%@".toList.contains c || c.toNat == 0x60

def atPlain (scanner : Scanner) : Bool :=
  let c := scanner.cursor.peek 0
  let next := scanner.cursor.peek 1
  !(endsToken c || isIndicator c) ||
    (!endsToken next &&
      (c == '-' || (scanner.brackets == 0 && (c == '?' || c == ':'))))

def fetch (scanner : Scanner) : Except Trouble Scanner :=
  let cursor := scanner.cursor
  let c := cursor.peek 0
  let inFlow := scanner.brackets != 0
  let alone := endsToken (cursor.peek 1)
  if c == '%' && cursor.column == 0 then scanner.fetchDirective
  else if cursor.column == 0 && cursor.atMark '-' then
    scanner.fetchSeparator .documentStart
  else if cursor.column == 0 && cursor.atMark '.' then
    scanner.fetchSeparator .documentEnd
  else if c == '[' then scanner.fetchOpening .flowSequenceStart
  else if c == '\x7b' then scanner.fetchOpening .flowMappingStart
  else if c == ']' then scanner.fetchClosing .flowSequenceEnd
  else if c == '\x7d' then scanner.fetchClosing .flowMappingEnd
  else if c == ',' then scanner.fetchFlowEntry
  else if c == '-' && alone then scanner.fetchBlockEntry
  else if c == '?' && (inFlow || alone) then scanner.fetchIndicator .key
  else if c == ':' && (inFlow || alone) then scanner.fetchValue
  else if c == '*' then scanner.fetchNode (scanName.map .alias)
  else if c == '&' then scanner.fetchNode (scanName.map .anchor)
  else if c == '!' then scanner.fetchNode scanTag
  else if c == '|' && !inFlow then scanner.fetchBlockScalar false
  else if c == '>' && !inFlow then scanner.fetchBlockScalar true
  else if c == '\'' then
    scanner.fetchNode ((scanQuoted false).map (.scalar · false))
  else if c == '"' then
    scanner.fetchNode ((scanQuoted true).map (.scalar · false))
  else if scanner.atPlain then scanner.fetchPlain
  else .error .malformed

/-- The tokens that are settled: none in front of them can still start a key. -/
def settled (scanner : Scanner) : List Token :=
  let places := scanner.keys.filterMap fun (_, key) =>
    if scanner.isStale key then none else some key.token
  scanner.tokens.reverse.take (places.foldl min scanner.count)

/-- All tokens up to the end, or those that were settled when they could be read
no further, and why. -/
def scanAll : Nat → Scanner → List Token × Option Trouble
  | 0, scanner => (scanner.settled, some .malformed)
  | fuel + 1, scanner =>
      let ahead := do
        let next ← skipToToken (scanner.cursor.rest.length + 1)
            scanner.skipOrderMark
        let fresh ← next.dropStale
        .ok (fresh.unwind fresh.cursor.column)
      match ahead with
      | .error trouble => (scanner.settled, some trouble)
      | .ok next =>
          if next.cursor.rest.isEmpty then
            match next.endBlocks with
            | .error trouble => (scanner.settled, some trouble)
            | .ok last => ((last.push .streamEnd).tokens.reverse, none)
          else
            match next.fetch with
            | .error trouble => (scanner.settled, some trouble)
            | .ok after => scanAll fuel after

end Scanner

/-- The tokens of a text. When it cannot be cut up to its end, the reason comes
with the tokens before. -/
def tokenize (chars : List Char) : List Token × Option Trouble :=
  Scanner.scanAll (chars.length + 1) (Scanner.start chars)

end Fragments.Yaml
