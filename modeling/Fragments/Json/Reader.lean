import Fragments.Json.Tree

namespace Fragments.Json

inductive ReadFailure
  /-- The text breaks the grammar; `rest` starts at the mistake. -/
  | syntactic (reason : String) (rest : List Char)
  | fault (fault : Fault)

def isSpace (c : Char) : Bool := c == ' ' || c == '\t' || c == '\n' || c == '\r'

def skipSpace (chars : List Char) : List Char := chars.dropWhile isSpace

def hexDigit? (c : Char) : Option Nat := Number.digitIn? 16 c

def fourHex? : List Char → Option (Nat × List Char)
  | a :: b :: c :: d :: e :: rest => do
      let value :=
        (((← hexDigit? a) * 16 + (← hexDigit? b)) * 16 + (← hexDigit? c)) * 16 +
        (← hexDigit? d)
      some (value, e :: rest)
  | _ => none

def isHighSurrogate (n : Nat) : Bool := 0xD800 ≤ n && n < 0xDC00

def isLowSurrogate (n : Nat) : Bool := 0xDC00 ≤ n && n < 0xE000

/-- A character by its code, and what stands behind it. -/
def charOf (code : Nat) (rest : List Char) :
    Except ReadFailure (Char × List Char) :=
  if code.isValidChar then .ok (Char.ofNat code, rest)
  else .error (.fault (.beyond .halfCharacter))

def simpleEscape? : Char → Option Char
  | '"' => some '"'
  | '\\' => some '\\'
  | '/' => some '/'
  | 'b' => some (Char.ofNat 8)
  | 'f' => some (Char.ofNat 12)
  | 'n' => some '\n'
  | 'r' => some '\r'
  | 't' => some '\t'
  | _ => none

def readCode (chars : List Char) : Except ReadFailure (Char × List Char) :=
  match fourHex? (chars.drop 1) with
  | none => .error (.syntactic "Invalid \\uXXXX escape" chars)
  | some (code, rest) =>
      match isHighSurrogate code, rest with
      | true, '\\' :: 'u' :: after =>
          if after.length < 5 then charOf code rest
          else
            match fourHex? after with
            | none =>
                .error (.syntactic "Invalid \\uXXXX escape" ('u' :: after))
            | some (low, afterLow) =>
                if isLowSurrogate low then
                  let plane := 0x10000 + (code - 0xD800) * 0x400
                  .ok (Char.ofNat (plane + (low - 0xDC00)), afterLow)
                else charOf code rest
      | _, _ => charOf code rest

/-- The characters of a string up to its closing quote. `opening` starts at the
opening one. -/
def readChars (opening : List Char) :
    Nat → List Char → Except ReadFailure (List Char × List Char)
  | 0, _ => .error (.syntactic "Unterminated string starting at" opening)
  | _ + 1, [] => .error (.syntactic "Unterminated string starting at" opening)
  | fuel + 1, c :: rest =>
      if c == '"' then .ok ([], rest)
      else if c.toNat < 0x20 then
        .error (.syntactic "Invalid control character at" (c :: rest))
      else if c == '\\' then
        match rest with
        | [] => .error (.syntactic "Unterminated string starting at" opening)
        | 'u' :: after => do
            let (char, left) ← readCode ('u' :: after)
            let (more, last) ← readChars opening fuel left
            .ok (char :: more, last)
        | mark :: after =>
            match simpleEscape? mark with
            | none => .error (.syntactic "Invalid \\escape" (c :: rest))
            | some char => do
                let (more, last) ← readChars opening fuel after
                .ok (char :: more, last)
      else do
        let (more, last) ← readChars opening fuel rest
        .ok (c :: more, last)

def readString (chars : List Char) :
    Except ReadFailure (String × List Char) := do
  let (content, rest) ← readChars chars (chars.length + 1) (chars.drop 1)
  .ok (String.ofList content, rest)

def isDigit (c : Char) : Bool := '0' ≤ c && c ≤ '9'

def wholePart? : List Char → Option (List Char × List Char)
  | '0' :: rest => some (['0'], rest)
  | c :: rest => if isDigit c then some ((c :: rest).span isDigit) else none
  | [] => none

def fractionPart : List Char → List Char × List Char
  | '.' :: rest =>
      match rest.span isDigit with
      | ([], _) => ([], '.' :: rest)
      | parts => parts
  | rest => ([], rest)

def exponentPart (chars : List Char) : Option Int × List Char :=
  match chars with
  | c :: rest =>
      if c == 'e' || c == 'E' then
        let (negative, unsigned) := Number.signOf rest
        match Number.digitRun 10 unsigned with
        | ([], _) => (none, chars)
        | (digits, after) =>
            let value : Int := Number.ofDigits 10 digits
            (some (if negative then -value else value), after)
      else (none, chars)
  | [] => (none, [])

def digitsValue (digits : List Char) : Nat :=
  Number.ofDigits 10 (digits.map fun c => c.toNat - '0'.toNat)

def readNumber? (chars : List Char) :
    Option (Except Fault Json × List Char) := do
  let (negative, unsigned) := match chars with
    | '-' :: rest => (true, rest)
    | rest => (false, rest)
  let (whole, afterWhole) ← wholePart? unsigned
  let (fraction, afterFraction) := fractionPart afterWhole
  let (exponent, rest) := exponentPart afterFraction
  if fraction.isEmpty && exponent.isNone then
    if whole.length > Number.digitLimit then
      some (.error (Number.tooManyDigits whole.length), rest)
    else
      let value : Int := digitsValue whole
      some (.ok (.int (if negative then -value else value)), rest)
  else
    let digits := digitsValue (whole ++ fraction)
    some (.ok
      (.float (.ofDecimal negative digits (exponent.getD 0 - fraction.length))),
      rest)

def afterWord? (word : String) (chars : List Char) : Option (List Char) :=
  if word.toList.isPrefixOf chars then some (chars.drop word.length) else none

def constants : List (String × Json) :=
  [("null", .null), ("true", .bool true), ("false", .bool false),
    ("NaN", .float .nan), ("Infinity", .float (.infinite false)),
    ("-Infinity", .float (.infinite true))]

def readConstant? (chars : List Char) : Option (Json × List Char) :=
  constants.findSome? fun (word, value) => (afterWord? word chars).map
    fun rest => (value, rest)

def readAtom (chars : List Char) : Except ReadFailure (Json × List Char) :=
  match readConstant? chars with
  | some found => .ok found
  | none =>
      match readNumber? chars with
      | some (.ok value, rest) => .ok (value, rest)
      | some (.error fault, _) => .error (.fault fault)
      | none => .error (.syntactic "Expecting value" chars)

def nestingLimit : Nat := 900

def tooNested : ReadFailure := .fault (.beyond .nesting)

mutual

/-- A value in which `levels` containers may lie in each other. -/
def readValue : Nat → Nat → List Char → Except ReadFailure (Json × List Char)
  | 0, _, chars => .error (.syntactic "Expecting value" chars)
  | fuel + 1, levels, chars =>
      match chars with
      | '"' :: _ => do
          let (value, rest) ← readString chars
          .ok (.text value, rest)
      | '[' :: rest => below levels tooNested
          (match skipSpace rest with
          | ']' :: after => .ok (.array [], after)
          | items => do
              let (values, after) ← readItems fuel (levels - 1) items
              .ok (.array values, after))
      | '\x7b' :: rest => below levels tooNested
          (match skipSpace rest with
          | '\x7d' :: after => .ok (.object [], after)
          | fields => do
              let (entries, after) ← readFields fuel (levels - 1) fields
              .ok (.object (uniqueEntries entries), after))
      | _ => readAtom chars

def readItems :
    Nat → Nat → List Char → Except ReadFailure (List Json × List Char)
  | 0, _, chars => .error (.syntactic "Expecting value" chars)
  | fuel + 1, levels, chars => do
      let (value, afterValue) ← readValue fuel levels chars
      match skipSpace afterValue with
      | ']' :: rest => .ok ([value], rest)
      | ',' :: rest => do
          let (values, after) ← readItems fuel levels (skipSpace rest)
          .ok (value :: values, after)
      | other => .error (.syntactic "Expecting ',' delimiter" other)

def readFields :
    Nat → Nat → List Char →
      Except ReadFailure (List (String × Json) × List Char)
  | 0, _, chars => .error (.syntactic "Expecting value" chars)
  | fuel + 1, levels, chars =>
      match chars with
      | '"' :: _ => do
          let (key, afterKey) ← readString chars
          match skipSpace afterKey with
          | ':' :: rest => do
              let (value, afterValue) ← readValue fuel levels (skipSpace rest)
              match skipSpace afterValue with
              | '\x7d' :: last => .ok ([(key, value)], last)
              | ',' :: more => do
                  let (entries, last) ← readFields fuel levels (skipSpace more)
                  .ok ((key, value) :: entries, last)
              | other => .error (.syntactic "Expecting ',' delimiter" other)
          | other => .error (.syntactic "Expecting ':' delimiter" other)
      | other =>
          .error
            (.syntactic "Expecting property name enclosed in double quotes"
              other)

end

inductive Malformed
  | syntactic (reason : String) (line column : Nat)
  | fault (fault : Fault)

/-- The line and column at which `rest` starts in `chars`, both counted from
one. -/
def placeOf (chars rest : List Char) : Nat × Nat :=
  let before := chars.take (chars.length - rest.length)
  let lines := Text.splitAt (· == '\n') before
  (lines.length, ((lines.getLast?).getD []).length + 1)

def locate (chars : List Char) : ReadFailure → Malformed
  | .syntactic reason rest =>
      let place := placeOf chars rest
      .syntactic reason place.1 place.2
  | .fault fault => .fault fault

def read (chars : List Char) : Except Malformed Json :=
  if chars.head? = some (Char.ofNat 0xFEFF) then
    .error (.syntactic "Unexpected UTF-8 BOM (decode using utf-8-sig)" 1 1)
  else
    match readValue (2 * chars.length + 2) nestingLimit (skipSpace chars) with
    | .error failure => .error (locate chars failure)
    | .ok (value, rest) =>
        match skipSpace rest with
        | [] => .ok value
        | extra => .error (locate chars (.syntactic "Extra data" extra))

end Fragments.Json
