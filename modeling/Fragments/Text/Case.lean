import Fragments.Text.CaseTable

namespace Fragments.Text

def inRanges (ranges : List (Nat × Nat)) (n : Nat) : Bool :=
  ranges.any fun range => range.1 ≤ n && n ≤ range.2

def CaseRun.holds (run : CaseRun) (n : Nat) : Bool :=
  run.first ≤ n && n ≤ run.last && (n - run.first) % run.step == 0

def shiftBy (runs : List CaseRun) (n : Nat) : Nat :=
  match runs.find? (·.holds n) with
  | some run => (n + run.shift).toNat
  | none => n

def isUpperAscii (c : Char) : Bool := 'A' ≤ c && c ≤ 'Z'

def isLowerAscii (c : Char) : Bool := 'a' ≤ c && c ≤ 'z'

def lowerChar (c : Char) : List Char :=
  if c.toNat < 128 then
    [if isUpperAscii c then Char.ofNat (c.toNat + 32) else c]
  else if c.toNat = 0x130 then ['i', Char.ofNat 0x307]
  else [Char.ofNat (shiftBy lowerRuns c.toNat)]

def upperChar (c : Char) : List Char :=
  if c.toNat < 128 then
    [if isLowerAscii c then Char.ofNat (c.toNat - 32) else c]
  else
    match upperExpansions.find? (·.1 == c.toNat) with
    | some (_, image) => image.map Char.ofNat
    | none => [Char.ofNat (shiftBy upperRuns c.toNat)]

def isCased (c : Char) : Bool := inRanges casedRanges c.toNat

def isCaseIgnorable (c : Char) : Bool := inRanges caseIgnorableRanges c.toNat

def casedFollows (rest : List Char) : Bool :=
  match rest.dropWhile isCaseIgnorable with
  | [] => false
  | c :: _ => isCased c

/-- Lower-cases `chars`; `afterCased` says whether the nearest character before
them, marks that carry no case left aside, is a cased letter. -/
def lowerFrom (afterCased : Bool) : List Char → List Char
  | [] => []
  | c :: rest =>
      (if c.toNat = 0x3A3 then
        [Char.ofNat (if afterCased && !casedFollows rest then 0x3C2 else 0x3C3)]
      else lowerChar c) ++
        lowerFrom (if isCaseIgnorable c then afterCased else isCased c) rest

def lower (text : String) : String :=
  String.ofList (lowerFrom false text.toList)

def upper (text : String) : String :=
  String.ofList (text.toList.flatMap upperChar)

end Fragments.Text
