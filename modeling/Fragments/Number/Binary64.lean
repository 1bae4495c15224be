namespace Fragments

-- These powers serve all that builds on this, whatever else is imported.
attribute [instance (10000)] instPowNat instNatPowNat Int.instNatPow
attribute [default_instance (10000)] instPowNat

inductive Binary64
  | nan
  | infinite (negative : Bool)
  | finite (negative : Bool) (position : Fin (2047 * 2 ^ 52))
  deriving DecidableEq, Inhabited

namespace Binary64

/-- The magnitude at a position, in units of the smallest positive one, `2 ^
-1074`. -/
def units (position : Nat) : Nat :=
  if position < 2 ^ 52 then position
  else (2 ^ 52 + position % 2 ^ 52) * 2 ^ (position / 2 ^ 52 - 1)

/-- The quotient rounded to the nearest integer, ties to the even one. -/
def roundedQuotient (numerator denominator : Nat) : Nat :=
  let quotient := numerator / denominator
  let twice := 2 * (numerator % denominator)
  if twice < denominator then quotient
  else if twice = denominator then quotient + quotient % 2
  else quotient + 1

def nearestPosition (numerator denominator : Nat) : Nat :=
  let scaled := numerator * 2 ^ 1074
  let binade := (scaled / denominator).log2 - 52
  binade * 2 ^ 52 + roundedQuotient scaled (denominator * 2 ^ binade)

def ofPosition (negative : Bool) (position : Nat) : Binary64 :=
  if h : position < 2047 * 2 ^ 52 then finite negative ⟨position, h⟩
  else infinite negative

def ofRatio (negative : Bool) (numerator denominator : Nat) : Binary64 :=
  ofPosition negative (nearestPosition numerator denominator)

def digitCount (n : Nat) : Nat := (Nat.toDigits 10 n).length

/-- The number nearest to `digits * 10 ^ exponent`. The two outer cases decide
without large powers what is beyond every finite number and below half the
smallest one. -/
def ofDecimal (negative : Bool) (digits : Nat) (exponent : Int) : Binary64 :=
  if digits = 0 then ofPosition negative 0
  else if digitCount digits + exponent > 310 then infinite negative
  else if digitCount digits + exponent < -330 then ofPosition negative 0
  else if 0 ≤ exponent then ofRatio negative (digits * 10 ^ exponent.toNat) 1
  else ofRatio negative digits (10 ^ (-exponent).toNat)

def ofInt (n : Int) : Binary64 := ofRatio (n < 0) n.natAbs 1

def zero : Binary64 := ofPosition false 0

def isFinite : Binary64 → Bool
  | finite _ _ => true
  | _ => false

def negate : Binary64 → Binary64
  | nan => nan
  | infinite negative => infinite (!negative)
  | finite negative position => finite (!negative) position

def signedUnits (negative : Bool) (position : Nat) : Int :=
  if negative then -(units position : Int) else units position

def add : Binary64 → Binary64 → Binary64
  | nan, _ => nan
  | _, nan => nan
  | infinite a, infinite b => if a = b then infinite a else nan
  | infinite a, finite _ _ => infinite a
  | finite _ _, infinite b => infinite b
  | finite a p, finite b q =>
      let sum := signedUnits a p + signedUnits b q
      ofRatio (if sum = 0 then a && b else sum < 0) sum.natAbs (2 ^ 1074)

def multiply : Binary64 → Binary64 → Binary64
  | nan, _ => nan
  | _, nan => nan
  | infinite a, infinite b => infinite (a != b)
  | infinite a, finite b q => if q.val = 0 then nan else infinite (a != b)
  | finite a p, infinite b => if p.val = 0 then nan else infinite (a != b)
  | finite a p, finite b q => ofRatio (a != b) (units p * units q) (2 ^ 2148)

def same : Binary64 → Binary64 → Bool
  | finite a p, finite b q => p == q && (a == b || p.val == 0)
  | x, y => x == y

def isInteger (n : Int) : Binary64 → Bool
  | finite negative position => signedUnits negative position == n * 2 ^ 1074
  | _ => false

end Binary64

end Fragments
