namespace Fragments.Text

def isBlank (c : Char) : Bool :=
  let n := c.toNat
  (0x09 ≤ n && n ≤ 0x0D) || (0x1C ≤ n && n ≤ 0x20) || n == 0x85 || n == 0xA0 ||
    n == 0x1680 || (0x2000 ≤ n && n ≤ 0x200A) || n == 0x2028 || n == 0x2029 ||
    n == 0x202F || n == 0x205F || n == 0x3000

def trimBoth (p : α → Bool) (xs : List α) : List α :=
  ((xs.dropWhile p).reverse.dropWhile p).reverse

def trim (text : String) : String :=
  String.ofList (trimBoth isBlank text.toList)

def isBlankText (text : String) : Bool :=
  text.toList.all isBlank

def splitAt (p : α → Bool) : List α → List (List α)
  | [] => [[]]
  | x :: xs =>
      if p x then [] :: splitAt p xs
      else
        match splitAt p xs with
        | [] => [[x]]
        | piece :: rest => (x :: piece) :: rest

def split (separator : Char) (text : String) : List String :=
  (splitAt (· == separator) text.toList).map String.ofList

def normaliseNewlines : List Char → List Char
  | [] => []
  | '\r' :: '\n' :: rest => '\n' :: normaliseNewlines rest
  | '\r' :: rest => '\n' :: normaliseNewlines rest
  | c :: rest => c :: normaliseNewlines rest

def hex (width n : Nat) : String :=
  let digits := Nat.toDigits 16 n
  String.ofList (List.replicate (width - digits.length) '0' ++ digits)

def padded (width n : Nat) : String :=
  let digits := Nat.toDigits 10 n
  String.ofList (List.replicate (width - digits.length) '0' ++ digits)

end Fragments.Text
