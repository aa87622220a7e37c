import BytecodeLowering.Toml.Scalar

/-!
# TOML documents

A document is a run of assignments followed by sections, each with a heading;
what the text means is the table that they build up together.
-/

namespace BytecodeLowering.Toml

open Scan

def depthLimit : Nat := 80

def bareKey : Scan String := do
  let isKeyCharacter c := c.isAlphanum || c == '_' || c == '-'
  let first ← satisfying isKeyCharacter
  let others ← longest isKeyCharacter
  return String.ofList (first :: others)

def pathStep : Scan String := do
  blanks
  let key ← escapedText <|> literalText <|> bareKey
  blanks
  return key

structure KeyPath where
  path : List String
  key : String
  deriving DecidableEq, Repr

def keyPath : Scan KeyPath := do
  let first ← pathStep
  let others ← many (do char '.'; pathStep)
  guard (others.length + 1 < depthLimit)
  match others.getLast? with
  | none => return ⟨[], first⟩
  | some last => return ⟨first :: others.dropLast, last⟩

structure Assignment where
  target : KeyPath
  value : Value

def assignment (value : Scan Value) : Scan Assignment := do
  let target ← keyPath
  char '='
  blanks
  return ⟨target, ← value⟩

def Entries.assignAll (assignments : List Assignment) (entries : Entries) : Option Entries :=
  assignments.foldlM
    (fun entries entry => entries.assign entry.target.key entry.value entry.target.path) entries

/-- An array may run over several lines and end with a comma. -/
def array (item : Scan Value) : Scan Value := do
  char '['
  let items ← separated ',' (do spacing; let value ← item; spacing; return value)
  unless items.isEmpty do
    char ',' <|> pure ()
  spacing
  char ']'
  return .array items

/-- A table in braces stands on one line. -/
def tableInBraces (item : Scan Value) : Scan Value := do
  char '\x7b'
  let assignments ← separated ',' (do let entry ← assignment item; blanks; return entry)
  blanks
  char '\x7d'
  return .table .braces (← Entries.assignAll assignments [])

def value : (depth : Nat) → Scan Value
  | 0 => scalar
  | depth + 1 => scalar <|> array (value depth) <|> tableInBraces (value depth)

/-! ## Lines -/

def emptyLine : Scan Unit := do
  blanks
  newline <|> (do comment; newline <|> atEnd)

def assignmentLine : Scan Assignment := do
  let entry ← assignment (value (depthLimit - 1))
  lineEnd
  return entry

def assignments : Scan (List Assignment) := do
  let lines ← many ((do emptyLine; return none) <|> some <$> assignmentLine)
  return lines.filterMap id

structure Heading where
  target : KeyPath
  addsRow : Bool
  deriving DecidableEq, Repr

def heading : Scan Heading := do
  blanks
  char '['
  let heading ←
    (do
      char '['
      let target ← keyPath
      word "]]"
      return ⟨target, true⟩)
    <|> do
      let target ← keyPath
      char ']'
      return ⟨target, false⟩
  lineEnd
  return heading

structure Chapter where
  heading : Heading
  assignments : List Assignment

def chapter : Scan Chapter := do
  let heading ← heading
  return ⟨heading, ← assignments⟩

def Entries.addChapter (entries : Entries) (chapter : Chapter) : Option Entries :=
  let target := chapter.heading.target
  let fill := Entries.assignAll chapter.assignments
  let place := if chapter.heading.addsRow then Entries.addRow else Entries.giveHeading
  entries.changeAt (place fill target.key) target.path

structure Document where
  top : List Assignment
  chapters : List Chapter

/-- A mark of the byte order may stand in front. -/
def document : Scan Document := do
  char '\ufeff' <|> pure ()
  let top ← assignments
  let chapters ← many chapter
  blanks
  atEnd
  return ⟨top, chapters⟩

def Document.entries? (document : Document) : Option Entries := do
  document.chapters.foldlM Entries.addChapter (← Entries.assignAll document.top [])

def Entries.ofText? (text : String) : Option Entries := do
  let (document, _) ← document text.toList
  document.entries?

end BytecodeLowering.Toml
