import Fragments.Data.Value
import Fragments.Text.Blank

namespace Fragments.EnvFile

def isLineEnd (c : Char) : Bool := c == '\n' || c == '\r'

def isInnerBlank (c : Char) : Bool := Text.isBlank c && !isLineEnd c

def skipInner (chars : List Char) : List Char := chars.dropWhile isInnerBlank

def skipExport (chars : List Char) : List Char :=
  if "export".toList.isPrefixOf chars then
    match chars.drop 6 with
    | c :: rest => if isInnerBlank c then skipInner rest else chars
    | [] => chars
  else chars

def readName (chars : List Char) :
    Except (List Char) (Option (List Char) × List Char) :=
  match chars with
  | '#' :: _ => .ok (none, chars)
  | '\'' :: rest =>
      match rest.span (· != '\'') with
      | (c :: name, _ :: after) => .ok (some (c :: name), after)
      | _ => .error chars
  | _ =>
      match chars.span fun c => c != '=' && c != '#' && !Text.isBlank c with
      | ([], _) => .error chars
      | (name, after) => .ok (some name, after)

/-- Where a quoted value ends: at the first mark without a backslash before it,
else at the last mark. -/
def closingMark? (mark : Char) (chars : List Char) : Option Nat :=
  let marks := (List.range chars.length).filter fun i => chars[i]? == some mark
  match marks.find? fun i => i == 0 || chars[i - 1]? != some '\\' with
  | some index => some index
  | none => marks.getLast?

def escapes (mark : Char) : List (Char × Char) :=
  if mark == '"' then
    [('\\', '\\'), ('\'', '\''), ('"', '"'), ('a', Char.ofNat 7),
      ('b', Char.ofNat 8), ('f', Char.ofNat 12), ('n', '\n'), ('r', '\r'),
      ('t', '\t'), ('v', Char.ofNat 11)]
  else [('\\', '\\'), ('\'', '\'')]

def unescape (mark : Char) : List Char → List Char
  | '\\' :: c :: rest =>
      match Entries.get? (escapes mark) c with
      | some char => char :: unescape mark rest
      | none => '\\' :: unescape mark (c :: rest)
  | c :: rest => c :: unescape mark rest
  | [] => []

def dropComment : List Char → List Char
  | [] => []
  | c :: rest =>
      if Text.isBlank c && (rest.dropWhile Text.isBlank).head? ==
        some '#' then []
      else c :: dropComment rest

def readValue (chars : List Char) :
    Except (List Char) (List Char × List Char) :=
  match chars with
  | [] => .ok ([], [])
  | c :: rest =>
      if c == '\'' || c == '"' then
        match closingMark? c rest with
        | some index =>
            .ok (unescape c (rest.take index), rest.drop (index + 1))
        | none => .error chars
      else
        let (line, after) := chars.span fun c => !isLineEnd c
        .ok (((dropComment line).reverse.dropWhile Text.isBlank).reverse, after)

def endLine (chars : List Char) : Except (List Char) (List Char) :=
  let afterComment :=
    match skipInner chars with
    | '#' :: rest => rest.dropWhile fun c => !isLineEnd c
    | _ => chars
  match skipInner afterComment with
  | [] => .ok []
  | '\r' :: '\n' :: rest => .ok rest
  | c :: rest => if isLineEnd c then .ok rest else .error afterComment

def readLine (chars : List Char) :
    Except (List Char)
    (Option (List Char × Option (List Char)) × List Char) := do
  let (name, afterName) ← readName (skipExport chars)
  let (value, after) ←
    match skipInner afterName with
    | '=' :: rest =>
        (readValue (skipInner rest)).map fun (value, left) => (some value, left)
    | rest => .ok (none, rest)
  let left ← endLine after
  .ok (name.map fun name => (name, value), left)

def skipLine (chars : List Char) : List Char :=
  match chars.dropWhile fun c => !isLineEnd c with
  | [] => []
  | _ :: rest => rest

def bindings : Nat → List Char → List (String × Option (List Char))
  | 0, _ => []
  | fuel + 1, chars =>
      match chars.dropWhile Text.isBlank with
      | [] => []
      | start =>
          match readLine start with
          | .ok (some (name, value), rest) =>
              (String.ofList name, value) :: bindings fuel rest
          | .ok (none, rest) => bindings fuel rest
          | .error rest => bindings fuel (skipLine rest)

def reference? : List Char → Option (String × String × List Char)
  | '$' :: '\x7b' :: rest =>
      let (name, afterName) := rest.span fun c => c != '\x7d' && c != ':'
      match afterName with
      | '\x7d' :: after => some (String.ofList name, "", after)
      | ':' :: '-' :: more =>
          match more.span (· != '\x7d') with
          | (other, _ :: after) =>
              some (String.ofList name, String.ofList other, after)
          | _ => none
      | _ => none
  | _ => none

def expand (valueOf : String → Option String) : Nat → List Char → List Char
  | 0, chars => chars
  | _ + 1, [] => []
  | fuel + 1, c :: rest =>
      match reference? (c :: rest) with
      | some (name, other, after) =>
          ((valueOf name).getD other).toList ++ expand valueOf fuel after
      | none => c :: expand valueOf fuel rest

/-- The value a reference sees: from the lines before it, else from the
environment. A name without a value counts as empty. -/
def valueOf (environment : List (String × String))
    (known : List (String × Option String)) (name : String) : Option String :=
  match Entries.get? known name with
  | some value => some (value.getD "")
  | none => Entries.get? environment.reverse name

def read (environment : List (String × String)) (chars : List Char) :
    List (String × Option String) :=
  (bindings (chars.length + 1) chars).foldl
    (fun known (name, value) =>
      let expanded := value.map fun chars =>
        String.ofList (expand (valueOf environment known)
          (chars.length + 1) chars)
      Entries.assign (· == ·) name expanded known)
    []

end Fragments.EnvFile
