import BytecodeLowering.Toml.Scan

/-!
# Quoted text in TOML

Double quotes allow escapes, single quotes take every character as it is; three
quotes open a text of several lines, in which a newline right after the opening
quotes is dropped and every other one counts as a single line feed.
-/

namespace BytecodeLowering.Toml

open Scan

def doubleQuote : Char := '\x22'

def singleQuote : Char := '\x27'

def isHexDigit (c : Char) : Bool :=
  c.isDigit || ('a' ≤ c && c ≤ 'f') || ('A' ≤ c && c ≤ 'F')

def hexDigitValue (c : Char) : Nat :=
  if c.isDigit then c.toNat - '0'.toNat
  else if 'a' ≤ c then c.toNat - 'a'.toNat + 10
  else c.toNat - 'A'.toNat + 10

def numberOfDigits (base : Nat) (digits : List Char) : Nat :=
  digits.foldl (fun number digit => number * base + hexDigitValue digit) 0

def codePoint (count : Nat) : Scan Char := do
  let digits ← (List.replicate count ()).mapM fun _ => satisfying isHexDigit
  let code := numberOfDigits 16 digits
  guard code.isValidChar
  return Char.ofNat code

def escape : Scan Char := do
  char '\\'
  match ← satisfying fun _ => true with
  | 'b' => return '\x08'
  | 't' => return '\t'
  | 'n' => return '\n'
  | 'f' => return '\x0c'
  | 'r' => return '\r'
  | '\x22' => return '\x22'
  | '\\' => return '\\'
  | 'u' => codePoint 4
  | 'U' => codePoint 8
  | _ => failure

def literalCharacter : Scan Char := satisfying fun c => isPlain c && c != singleQuote

def unescapedCharacter : Scan Char :=
  satisfying fun c => isPlain c && c != doubleQuote && c != '\\'

def literalText : Scan String := do
  char singleQuote
  let content ← many literalCharacter
  char singleQuote
  return String.ofList content

def escapedText : Scan String := do
  char doubleQuote
  let content ← many (unescapedCharacter <|> escape)
  char doubleQuote
  return String.ofList content

/-! ## Texts of several lines

One or two quotes in a row are part of the text.  The closing run has three to
five: the quotes beyond three belong to the text. -/

def quoteRun (quote : Char) (least most : Nat) : Scan Nat := do
  let run ← longest (· == quote)
  guard (least ≤ run.length ∧ run.length ≤ most)
  return run.length

def innerQuotes (quote : Char) : Scan (List Char) :=
  return List.replicate (← quoteRun quote 1 2) quote

def closingQuotes (quote : Char) : Scan (List Char) :=
  return List.replicate ((← quoteRun quote 3 5) - 3) quote

def lineBreak : Scan (List Char) := do
  newline
  return ['\n']

/-- A backslash at the end of a line removes the white space up to the next
character. -/
def joinedLines : Scan (List Char) := do
  char '\\'
  blanks
  newline
  let _ ← many ((do let _ ← satisfying isBlank) <|> newline)
  return []

def severalLines (quote : Char) (piece : Scan (List Char)) : Scan String := do
  (List.replicate 3 quote).forM char
  newline <|> pure ()
  let pieces ← many (piece <|> lineBreak <|> innerQuotes quote)
  let last ← closingQuotes quote
  return String.ofList (pieces.flatten ++ last)

def severalLiteralLines : Scan String :=
  severalLines singleQuote (return [← literalCharacter])

def severalEscapedLines : Scan String :=
  severalLines doubleQuote
    ((return [← unescapedCharacter]) <|> joinedLines <|> (return [← escape]))

def quotation : Scan String :=
  severalEscapedLines <|> escapedText <|> severalLiteralLines <|> literalText

end BytecodeLowering.Toml
