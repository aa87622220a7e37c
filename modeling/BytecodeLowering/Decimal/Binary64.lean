import BytecodeLowering.Decimal.Shortest
import BytecodeLowering.Text.Numeral

/-!
# Double-precision numbers

Double-precision numbers, given by their 64 bits: the parts of the bit
pattern, equality as numbers, and their text.  The text has the fewest digits
that read back and never an exponent.
-/

namespace BytecodeLowering.Decimal

structure Binary64 where
  bits : UInt64
  deriving DecidableEq, Repr

namespace Binary64

def isNegative (x : Binary64) : Bool := 0x8000000000000000 ≤ x.bits.toNat

def biasedExponent (x : Binary64) : Nat := x.bits.toNat / 0x10000000000000 % 0x800

def fraction (x : Binary64) : Nat := x.bits.toNat % 0x10000000000000

def isFinite (x : Binary64) : Bool := x.biasedExponent != 2047

def isNaN (x : Binary64) : Bool := !x.isFinite && x.fraction != 0

def isZero (x : Binary64) : Bool := x.biasedExponent == 0 && x.fraction == 0

/-- Equality of numbers: the two zeros are equal, and a number that is not a
number differs from everything. -/
def numericallyEqual (x y : Binary64) : Bool :=
  !x.isNaN && !y.isNaN && (x.bits == y.bits || x.isZero && y.isZero)

def interval (x : Binary64) : Interval :=
  if x.biasedExponent = 0 then Interval.around x.fraction (-1074) false
  else
    Interval.around (0x10000000000000 + x.fraction) (x.biasedExponent - 1075) (x.fraction == 0)

end Binary64

def Scientific.significantDigits (s : Scientific) : List Char :=
  ((Nat.toDigits 10 s.digits).reverse.dropWhile (· == '0')).reverse

def Scientific.positional (s : Scientific) : String :=
  let all := Nat.toDigits 10 s.digits
  let digits := s.significantDigits
  let exponent := s.exponent + (all.length - digits.length : Nat)
  if 0 ≤ exponent then String.ofList digits ++ Text.zeros exponent.toNat
  else
    let places := (-exponent).toNat
    if places < digits.length then
      let whole := digits.take (digits.length - places)
      let rest := digits.drop (digits.length - places)
      String.ofList whole ++ "." ++ String.ofList rest
    else "0." ++ Text.zeros (places - digits.length) ++ String.ofList digits

def Binary64.magnitudeText (x : Binary64) : String :=
  if !x.isFinite then "inf"
  else if x.isZero then "0"
  else x.interval.shortest.positional

def Binary64.text (x : Binary64) : String :=
  if x.isNaN then "NaN"
  else if x.isNegative then "-" ++ x.magnitudeText
  else x.magnitudeText

end BytecodeLowering.Decimal
