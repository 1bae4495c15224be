import Fragments.Failure
import Fragments.Markup.StyleName
import Fragments.Text.Width

namespace Fragments.Markup

def startsMark (c : Char) : Bool :=
  Text.isLowerAscii c || c == '#' || c == '/' || c == '@'

def isBracket (c : Char) : Bool := c == '[' || c == ']'

def markText? : List Char → Option (List Char × List Char)
  | [] => none
  | first :: rest =>
      if startsMark first then
        match rest.dropWhile fun c => !isBracket c with
        | ']' :: after =>
            some (first :: rest.takeWhile (fun c => !isBracket c), after)
        | _ => none
      else none

def escapedMark? (chars : List Char) : Option (Nat × List Char × List Char) :=
  match chars.dropWhile (· == '\\') with
  | '[' :: rest =>
      (markText? rest).map fun (text, after) =>
        ((chars.takeWhile (· == '\\')).length, text, after)
  | _ => none

inductive Piece
  | plain (chars : List Char)
  | mark (text : List Char)
  deriving DecidableEq

def Piece.addPlain (chars : List Char) : List Piece → List Piece
  | .plain more :: rest => .plain (chars ++ more) :: rest
  | pieces => if chars.isEmpty then pieces else .plain chars :: pieces

/-- What stands for a mark behind some backslashes. Two backslashes are one
plain backslash, and one that is left over makes the mark plain text. -/
def Piece.ofMark (slashes : Nat) (text : List Char) : List Piece :=
  let halved := if slashes < 2 then []
    else [Piece.plain (List.replicate (slashes / 2) '\\')]
  halved ++ [if slashes % 2 = 1 then .plain ('[' :: text ++ [']'])
    else .mark text]

theorem length_of_dropWhile {p : α → Bool} {xs rest : List α} {x : α}
    (found : xs.dropWhile p = x :: rest) : rest.length < xs.length := by
  have shorter := (List.dropWhile_sublist p (l := xs)).length_le
  rw [found] at shorter
  exact shorter

theorem length_of_markText? {chars text after : List Char}
    (found : markText? chars = some (text, after)) :
    after.length < chars.length := by
  unfold markText? at found
  split at found
  · cases found
  · next first rest =>
      split at found
      · split at found
        · next tail dropped =>
            have shorter := length_of_dropWhile dropped
            simp only [Option.some.injEq, Prod.mk.injEq] at found
            rw [← found.2, List.length_cons]
            omega
        · cases found
      · cases found

theorem length_of_escapedMark? {chars text after : List Char} {slashes : Nat}
    (found : escapedMark? chars = some (slashes, text, after)) :
    after.length < chars.length := by
  unfold escapedMark? at found
  split at found
  · next tail dropped =>
      have shorter := length_of_dropWhile dropped
      obtain ⟨pair, marked, same⟩ := Option.map_eq_some_iff.1 found
      simp only [Prod.mk.injEq] at same
      have inner := length_of_markText? marked
      rw [← same.2.2]
      omega
  · cases found

def pieces (chars : List Char) : List Piece :=
  match found : escapedMark? chars with
  | some (slashes, text, after) =>
      have : after.length < chars.length := length_of_escapedMark? found
      Piece.ofMark slashes text ++ pieces after
  | none =>
      match chars with
      | [] => []
      | c :: rest => Piece.addPlain [c] (pieces rest)
termination_by chars.length

def isControl (c : Char) : Bool :=
  c.toNat == 7 || c.toNat == 8 || (11 ≤ c.toNat && c.toNat ≤ 13)

def unescaped : List Char → List Char
  | [] => []
  | '\\' :: '[' :: rest => '[' :: unescaped rest
  | c :: rest => c :: unescaped rest

def markName (text : List Char) : String :=
  String.ofList (text.takeWhile (· != '='))

def isClosing (text : List Char) : Bool := text.head? == some '/'

/-- The style that a mark opens or closes. A closing mark without one closes the
last. -/
def styleOf (text : List Char) : String :=
  if isClosing text then
    Text.trim (String.ofList ((markName text).toList.drop 1))
  else markName text

/-- What stands behind the first equals sign of a mark. -/
def markParameters? (text : List Char) : Option String :=
  match text.dropWhile (· != '=') with
  | _ :: parameters => some (String.ofList parameters)
  | [] => none

structure OpenMark where
  name : String
  parameters : Option String
  deriving DecidableEq

namespace OpenMark

/-- The style in which what the mark encloses is printed. -/
def style (mark : OpenMark) : String :=
  match mark.parameters with
  | none => mark.name
  | some parameters => mark.name ++ " " ++ parameters

/-- A style is looked at once more when it is printed. -/
def checkStyle (mark : OpenMark) : Except Fault Unit :=
  match StyleName.ofText mark.style with
  | .ok _ => .ok ()
  | .error _ => .error (.beyond .styleParameters)

def isHandlerName (c : Char) : Bool := c.isAlphanum || c == '_' || c == '.'

/-- The parameters of a handler are looked at when it is closed. A mere name is
fine. -/
def checkHandler (mark : OpenMark) : Except Fault Unit :=
  match mark.name.toList, mark.parameters with
  | '@' :: _, some parameters =>
      if (Text.trim parameters).toList.all isHandlerName then .ok ()
      else .error (.beyond .styleParameters)
  | _, _ => .ok ()

end OpenMark

/-- The last mark of a name, and the marks without it. -/
def close? (name : String) : List OpenMark → Option (OpenMark × List OpenMark)
  | [] => none
  | last :: others =>
      if last.name = name then some (last, others)
      else (close? name others).map fun (closed, left) => (closed, last :: left)

/-- The mark that a closing mark of this name closes, and those that it leaves
open. One without a name closes the last. -/
def closed? (name : String) (opened : List OpenMark) :
    Except Fault (Option (OpenMark × List OpenMark)) :=
  if name.isEmpty then
    .ok (match opened with
      | last :: others => some (last, others)
      | [] => none)
  else do .ok (close? (← StyleName.normalise name) opened)

def applyMark (text : List Char) (opened : List OpenMark) :
    Except Fault (List OpenMark) :=
  if isClosing text then do
    match ← closed? (styleOf text) opened with
    | some (closed, left) => do
        closed.checkHandler
        .ok left
    | none => .error .strayMark
  else do
    let mark := ⟨← StyleName.normalise (styleOf text), markParameters? text⟩
    mark.checkStyle
    .ok (mark :: opened)

def renderPieces (opened : List OpenMark) :
    List Piece → Except Fault (List Char)
  | [] => .ok []
  | .plain chars :: rest => do
      let printed ← renderPieces opened rest
      .ok (unescaped chars ++ printed)
  | .mark text :: rest => do
      let opened ← applyMark text opened
      renderPieces opened rest

def render (text : String) : Except Fault String := do
  let chars := text.toList
  let printed ← if chars.contains '[' then renderPieces [] (pieces chars)
      else .ok chars
  .ok (String.ofList (printed.filter fun c => !isControl c))

def escapeMarks (chars : List Char) : List Char :=
  match found : escapedMark? chars with
  | some (slashes, text, after) =>
      have : after.length < chars.length := length_of_escapedMark? found
      List.replicate (2 * slashes + 1) '\\' ++ '[' :: text ++
        ']' :: escapeMarks after
  | none =>
      match chars with
      | [] => []
      | c :: rest => c :: escapeMarks rest
termination_by chars.length

/-- The text in a form that renders as itself. A single backslash at the end is
doubled, for a mark may follow. -/
def escape (text : String) : String :=
  let chars := escapeMarks text.toList
  let endsSingle := match chars.reverse with
    | '\\' :: '\\' :: _ => false
    | '\\' :: _ => true
    | _ => false
  String.ofList (if endsSingle then chars ++ ['\\'] else chars)

/-- Tabs become blanks up to the next multiple of eight columns; `column` is
where the text starts. -/
def expandTabs (column : Nat) : List Char → List Char
  | [] => []
  | c :: rest =>
      if c == '\t' then
        let blanks := 8 - column % 8
        List.replicate blanks ' ' ++ expandTabs (column + blanks) rest
      else c :: expandTabs
        (if c == '\n' then 0 else column + Text.charWidth c) rest

def printLine (text : String) : Except Fault String := do
  let printed ← render text
  .ok (String.ofList (expandTabs 0 printed.toList) ++ "\n")

end Fragments.Markup
