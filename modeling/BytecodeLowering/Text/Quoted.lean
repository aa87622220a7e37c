import BytecodeLowering.Text.Numeral
import BytecodeLowering.Text.Unprintable

/-!
# Quoted text

A text as a quoted literal: between double quotes, with the usual short
escapes, and every other character that would not show given by its code
point.
-/

namespace BytecodeLowering.Text

def codePointEscape (c : Char) : String :=
  "\\u\x7b" ++ hexDigits c.toNat ++ "\x7d"

def isAsciiControl (c : Char) : Bool := c.toNat < 0x20 || c.toNat == 0x7F

def quotedChar (c : Char) : String :=
  match c with
  | '\x00' => "\\0"
  | '\t' => "\\t"
  | '\r' => "\\r"
  | '\n' => "\\n"
  | '"' => "\\\""
  | '\\' => "\\\\"
  | _ =>
      if isAsciiControl c then codePointEscape c
      else if c.toNat < 0x80 then c.toString
      else if isUnprintable c then codePointEscape c
      else c.toString

def quoted (text : String) : String :=
  "\"" ++ String.join (text.toList.map quotedChar) ++ "\""

end BytecodeLowering.Text
