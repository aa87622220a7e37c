/-!
# Scanning

Scanning text from the left.  A scan returns a value and the text after it, or
nothing; an alternative starts where the failed scan started.  Blanks,
newlines and comments of the TOML format stand here too.
-/

namespace BytecodeLowering.Toml

abbrev Scan := StateT (List Char) Option

namespace Scan

def rest : Scan (List Char) := get

def satisfying (accepted : Char → Bool) : Scan Char
  | [] => none
  | c :: rest => if accepted c then some (c, rest) else none

def char (c : Char) : Scan Unit := do
  let _ ← satisfying (· == c)

def word (text : String) : Scan Unit := text.toList.forM char

def oneOf (chars : List Char) : Scan Char := satisfying chars.contains

def longest (accepted : Char → Bool) : Scan (List Char)
  | input => some (input.takeWhile accepted, input.dropWhile accepted)

def atEnd : Scan Unit := do
  guard (← rest).isEmpty

def manyFrom (item : Scan α) (input : List Char) : List α × List Char :=
  match item input with
  | none => ([], input)
  | some (value, rest) =>
      if rest.length < input.length then
        let (values, rest) := manyFrom item rest
        (value :: values, rest)
      else ([], input)
termination_by input.length

def many (item : Scan α) : Scan (List α)
  | input => some (manyFrom item input)

def separated (separator : Char) (item : Scan α) : Scan (List α) :=
  (do
    let first ← item
    let others ← many (do char separator; item)
    return first :: others)
  <|> pure []

def written (scan : Scan α) : Scan String := do
  let before ← rest
  let _ ← scan
  let after ← rest
  return String.ofList (before.take (before.length - after.length))

end Scan

open Scan

def isBlank (c : Char) : Bool := c == ' ' || c == '\t'

def isPlain (c : Char) : Bool :=
  c == '\t' || (0x20 ≤ c.toNat && c.toNat ≠ 0x7F)

def blanks : Scan Unit := do
  let _ ← longest isBlank

def newline : Scan Unit := char '\n' <|> word "\r\n"

def comment : Scan Unit := do
  char '#'
  let _ ← longest isPlain

def lineEnd : Scan Unit := do
  blanks
  comment <|> pure ()
  newline <|> atEnd

def spacing : Scan Unit := do
  let _ ← many ((do let _ ← satisfying isBlank) <|> newline <|> (do comment; newline))

end BytecodeLowering.Toml
