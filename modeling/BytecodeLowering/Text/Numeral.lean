/-!
# Numerals

Numerals as they stand in messages and listings: decimal text of signed
numbers, numbers filled up with zeros to a least width, and hexadecimal.
-/

namespace BytecodeLowering.Text

def decimal : Int → String
  | .ofNat n => Nat.repr n
  | .negSucc n => "-" ++ Nat.repr (n + 1)

def zeros (n : Nat) : String := String.ofList (List.replicate n '0')

def blanks (n : Nat) : String := String.ofList (List.replicate n ' ')

/-- Zeros go between the sign and the digits; the sign counts towards the width. -/
def zeroFilled (width : Nat) : Int → String
  | .ofNat n => zeros (width - (Nat.repr n).length) ++ Nat.repr n
  | .negSucc n =>
      let digits := Nat.repr (n + 1)
      "-" ++ zeros (width - 1 - digits.length) ++ digits

def leftAligned (width : Nat) (text : String) : String :=
  text ++ blanks (width - text.length)

def hexDigits (n : Nat) : String := String.ofList (Nat.toDigits 16 n)

def hexNumeral (n : Nat) : String := "0x" ++ hexDigits n

def commaSeparated (items : List String) : String := ", ".intercalate items

end BytecodeLowering.Text
