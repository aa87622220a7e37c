import BytecodeLowering.Toml.Quotation
import BytecodeLowering.Toml.Value

/-!
# TOML values without parts

Values without parts: truth values, numbers, dates and times.
-/

namespace BytecodeLowering.Toml

open Scan

def truthValue : Scan Bool :=
  (do word "true"; return true) <|> (do word "false"; return false)

/-! ## Numbers

Digits may have single underscores between them.  A decimal numeral has no
leading zero and may have a sign. -/

def digitGroups (accepted : Char → Bool) : Scan (List Char) := do
  let first ← satisfying accepted
  let others ← many (do char '_' <|> pure (); satisfying accepted)
  return first :: others

def isMinus (sign : Option Char) : Bool := sign == some '-'

def sign : Scan (Option Char) := optional (oneOf ['+', '-'])

/-- The digits before the point: a zero alone, or digits that start with no
zero. -/
def wholeDigits : Scan (List Char) := do
  if (← rest).head? = some '0' then
    char '0'
    return ['0']
  else digitGroups Char.isDigit

def inRange (value : Int) : Scan Int := do
  guard (-0x8000000000000000 ≤ value ∧ value < 0x8000000000000000)
  return value

def basedInteger (mark : String) (base : Nat) (accepted : Char → Bool) : Scan Int := do
  word mark
  inRange (numberOfDigits base (← digitGroups accepted))

def decimalInteger : Scan Int := do
  let sign ← sign
  let magnitude := numberOfDigits 10 (← wholeDigits)
  inRange (if isMinus sign then -magnitude else magnitude)

def integer : Scan Int :=
  basedInteger "0x" 16 isHexDigit
  <|> basedInteger "0o" 8 (fun c => '0' ≤ c && c ≤ '7')
  <|> basedInteger "0b" 2 (fun c => c == '0' || c == '1')
  <|> decimalInteger

/-- Whether `digits * 10 ^ exponent` is rounded to a finite binary number of
64 bits: it lies below the middle between the largest of them and the power of
two that follows.  The number of digits settles all but a few cases without
the power. -/
def isFinite (digits : List Char) (exponent : Int) : Bool :=
  let significant := digits.dropWhile (· == '0')
  let size := significant.length + exponent
  if significant.isEmpty ∨ size ≤ 308 then true
  else if 309 < size then false
  else
    numberOfDigits 10 significant * Nat.pow 10 exponent.toNat
      < (Nat.pow 2 54 - 1) * Nat.pow 2 970 * Nat.pow 10 (-exponent).toNat

def fraction : Scan (List Char) := do
  char '.'
  digitGroups Char.isDigit

def exponent : Scan Int := do
  let _ ← oneOf ['e', 'E']
  let sign ← sign
  let magnitude := numberOfDigits 10 (← digitGroups Char.isDigit)
  return if isMinus sign then -magnitude else magnitude

/-- A numeral with a fraction, an exponent or both.  One that is too large for
64 bits is refused unless it is negative. -/
def scientific : Scan Unit := do
  let sign ← sign
  let whole ← wholeDigits
  let fraction ← optional fraction
  let exponent ← optional exponent
  guard (fraction.isSome ∨ exponent.isSome)
  let places := fraction.getD []
  guard (isMinus sign ∨ isFinite (whole ++ places) (exponent.getD 0 - places.length))

def specialNumber : Scan Unit := do
  let _ ← sign
  word "inf" <|> word "nan"

/-! ## Dates and times -/

def field (count least most : Nat) : Scan Nat := do
  let digits ← (List.replicate count ()).mapM fun _ => satisfying Char.isDigit
  let number := numberOfDigits 10 digits
  guard (least ≤ number ∧ number ≤ most)
  return number

def daysInMonth (year month : Nat) : Nat :=
  if month = 2 then
    if year % 4 = 0 ∧ (year % 100 ≠ 0 ∨ year % 400 = 0) then 29 else 28
  else if month ∈ [4, 6, 9, 11] then 30
  else 31

def date : Scan Unit := do
  let year ← field 4 0 9999
  char '-'
  let month ← field 2 1 12
  char '-'
  let _ ← field 2 1 (daysInMonth year month)

/-- A minute may have a leap second. -/
def timeOfDay : Scan Unit := do
  let _ ← field 2 0 23
  char ':'
  let _ ← field 2 0 59
  char ':'
  let _ ← field 2 0 60
  (do
    char '.'
    let _ ← satisfying Char.isDigit
    let _ ← longest Char.isDigit) <|> pure ()

def zoneOffset : Scan Unit :=
  (do let _ ← oneOf ['Z', 'z'])
  <|> do
    let _ ← oneOf ['+', '-']
    let _ ← field 2 0 23
    char ':'
    let _ ← field 2 0 59

def dateAndTime : Scan Unit := do
  date
  (do
    let _ ← oneOf ['T', 't', ' ']
    timeOfDay
    zoneOffset <|> pure ()) <|> pure ()

def moment : Scan Unit := dateAndTime <|> timeOfDay

/-- The longest reading comes first: a date starts with digits, and so does a
number with a fraction. -/
def scalar : Scan Value :=
  Value.text <$> quotation
  <|> Value.boolean <$> truthValue
  <|> Value.moment <$> written moment
  <|> Value.float <$> written (scientific <|> specialNumber)
  <|> Value.integer <$> integer

end BytecodeLowering.Toml
