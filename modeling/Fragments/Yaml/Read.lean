import Fragments.Yaml.Build
import Fragments.Yaml.Scanner

namespace Fragments.Yaml

def isAllowed (c : Char) : Bool :=
  let n := c.toNat
  n == 9 || n == 10 || n == 13 || (0x20 ≤ n && n ≤ 0x7E) || n == 0x85 ||
    (0xA0 ≤ n && n ≤ 0xD7FF) || (0xE000 ≤ n && n ≤ 0xFFFD) || 0x10000 ≤ n

/-- Whether tokens hold an alias whose anchor is not known, or a known anchor on
a node that has begun. -/
def misnames (anchors : List String) : List Token → Bool
  | [] => false
  | .alias name :: rest => !anchors.contains name || misnames anchors rest
  | .anchor name :: rest =>
      let begun := match rest with
        | [] => false
        | [.tag _ _] => false
        | _ => true
      (anchors.contains name && begun) || misnames (name :: anchors) rest
  | _ :: rest => misnames anchors rest

/-- The tree of a text. What the tokens before a mistake misname is met before
it. -/
def parse (chars : List Char) : Except Trouble (Option Tree) :=
  let (tokens, trouble) := tokenize chars
  Tree.ofTokens tokens
    (if misnames [] tokens then .malformed else trouble.getD .malformed)

def read (chars : List Char) : Except Trouble Value :=
  if !chars.all isAllowed then .error .malformed
  else do
    match ← parse chars with
    | none => .ok .null
    | some tree => do
        let (root, graph) ← Graph.ofTree tree
        let value ← build root graph
        if nestingLimit < value.height then .error tooNested else .ok value

end Fragments.Yaml
