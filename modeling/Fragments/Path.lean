import Fragments.Text.Blank

namespace Fragments

structure Path where
  root : String
  parts : List String
  deriving DecidableEq, Inhabited

namespace Path

/-- The root that a path text starts with: none, one slash, or exactly two. -/
def rootOf : List Char → String
  | '/' :: '/' :: '/' :: _ => "/"
  | '/' :: '/' :: _ => "//"
  | '/' :: _ => "/"
  | _ => ""

def ofText (text : String) : Path :=
  ⟨rootOf text.toList, (Text.split '/' text).filter fun part => part ≠ "" ∧
    part ≠ "."⟩

def text (path : Path) : String :=
  if path.root.isEmpty && path.parts.isEmpty then "."
  else path.root ++ "/".intercalate path.parts

def name (path : Path) : String := path.parts.getLast?.getD ""

def child (path : Path) (name : String) : Path :=
  { path with parts := path.parts ++ [name] }

def lastDot? (chars : List Char) : Option Nat :=
  (chars.reverse.findIdx? (· == '.')).map fun fromEnd =>
    chars.length - 1 - fromEnd

def suffixOf (name : List Char) : List Char :=
  match lastDot? name with
  | some index =>
      if 0 < index ∧ index + 1 < name.length then name.drop index else []
  | none => []

def suffix (path : Path) : String := String.ofList (suffixOf path.name.toList)

def extension (path : Path) : String :=
  String.ofList ((suffixOf path.name.toList).dropWhile (· == '.'))

end Path

end Fragments
