import Fragments.Number.Binary64

namespace Fragments.Binary64

/-- Significant digits and the place of the decimal point: the value is
`0.digits * 10 ^ point`. -/
structure Decimal where
  digits : Nat
  point : Int

def Decimal.exponent (d : Decimal) : Int := d.point - digitCount d.digits

def leadingZeros (denominator : Nat) : Nat → Nat → Nat → Nat
  | 0, tried, _ => tried
  | fuel + 1, tried, numerator =>
      if denominator ≤ numerator then tried
      else leadingZeros denominator fuel (tried + 1) (numerator * 10)

def pointOf (numerator denominator : Nat) : Int :=
  if denominator ≤ numerator then digitCount (numerator / denominator)
  else 1 - (leadingZeros denominator 400 0 numerator : Int)

/-- The two decimals of `length` digits around a ratio, the nearer one first;
from halfway between them, the even one. -/
def neighbours (numerator denominator : Nat) (point : Int) (length : Nat) :
    List Decimal :=
  let shift := (length : Int) - point
  let top := if 0 ≤ shift then numerator * 10 ^ shift.toNat else numerator
  let bottom := if 0 ≤ shift then denominator
    else denominator * 10 ^ (-shift).toNat
  let below := top / bottom
  let decimal := fun n : Nat => Decimal.mk n (point + digitCount n - length)
  let twice := 2 * (top % bottom)
  if twice < bottom || (twice == bottom && below % 2 == 0) then
    [decimal below, decimal (below + 1)]
  else [decimal (below + 1), decimal below]

def Decimal.readsAs (position : Nat) (d : Decimal) : Bool :=
  ofDecimal false d.digits d.exponent == ofPosition false position

def exactDecimal (position : Nat) : Decimal :=
  let digits := units position * 5 ^ 1074
  ⟨digits, digitCount digits - 1074⟩

def shortest (position : Nat) : Decimal :=
  if position = 0 then ⟨0, 1⟩
  else
    let point := pointOf (units position) (2 ^ 1074)
    let candidates := (List.range 17).flatMap fun n =>
      neighbours (units position) (2 ^ 1074) point (n + 1)
    (candidates.find? (·.readsAs position)).getD (exactDecimal position)

def trimZeros (digits : List Char) : List Char :=
  match (digits.reverse.dropWhile (· == '0')).reverse with
  | [] => ['0']
  | kept => kept

def signed (negative : Bool) (text : List Char) : String :=
  String.ofList (if negative then '-' :: text else text)

def exponentText (exponent : Int) : List Char :=
  let digits := Nat.toDigits 10 exponent.natAbs
  ['e', if exponent < 0 then '-' else '+'] ++
    (if digits.length < 2 then '0' :: digits else digits)

def Decimal.text (d : Decimal) : List Char :=
  let digits := trimZeros (Nat.toDigits 10 d.digits)
  if -4 < d.point ∧ d.point ≤ 0 then
    '0' :: '.' :: List.replicate (-d.point).toNat '0' ++ digits
  else if 0 < d.point ∧ d.point ≤ 16 then
    let whole := d.point.toNat
    if digits.length ≤ whole then
      digits ++ List.replicate (whole - digits.length) '0' ++ ['.', '0']
    else digits.take whole ++ '.' :: digits.drop whole
  else
    digits.take 1 ++ (if digits.length = 1 then [] else '.' :: digits.drop 1) ++
      exponentText (d.point - 1)

def text : Binary64 → String
  | nan => "nan"
  | infinite negative => signed negative "inf".toList
  | finite negative position => signed negative (shortest position).text

end Fragments.Binary64
