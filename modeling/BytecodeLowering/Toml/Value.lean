/-!
# TOML values

The values of a TOML document, and the rules by which key paths and table
headings build up a table.

A table remembers how it came to be, because that decides who may still add to
it.  A heading may give entries to a table that was only passed through so
far, a key path only to one that key paths made, and nothing adds to a table
written in braces.
-/

namespace BytecodeLowering.Toml

inductive Origin where
  | heading
  | passedThrough
  | keyPath
  | braces
  deriving DecidableEq, Repr

inductive Value where
  | text (content : String)
  | boolean (value : Bool)
  | integer (value : Int)
  | float (written : String)
  | moment (written : String)
  | array (items : List Value)
  | table (origin : Origin) (entries : List (String × Value))
  /-- Tables that headings in double brackets added one by one. -/
  | rows (tables : List (List (String × Value)))

/-- The entries of a table in the order of their first mention. -/
abbrev Entries := List (String × Value)

namespace Entries

def put (key : String) (value : Value) : Entries → Entries
  | [] => [(key, value)]
  | (other, old) :: rest =>
      if other = key then (key, value) :: rest else (other, old) :: put key value rest

def changeLast (change : Entries → Option Entries) : List Entries → Option (List Entries)
  | [] => none
  | [last] => return [← change last]
  | first :: rest => return first :: (← changeLast change rest)

/-- Enters a value under a key path.  Tables that are missing on the way are
made; the key itself must be new, and the table it goes into must be made by
key paths unless the path is empty. -/
def assign (key : String) (value : Value) : List String → Entries → Option Entries
  | [], entries =>
      match entries.lookup key with
      | none => some (put key value entries)
      | some _ => none
  | step :: path, entries =>
      match entries.lookup step with
      | none => do
          let inner ← assign key value path []
          return put step (.table .keyPath inner) entries
      | some (.table origin inner) => do
          guard (origin = .keyPath ∨ (origin = .passedThrough ∧ path ≠ []))
          let inner ← assign key value path inner
          return put step (.table origin inner) entries
      | some (.rows tables) => do
          guard (path ≠ [])
          let tables ← changeLast (assign key value path) tables
          return put step (.rows tables) entries
      | some _ => none

def changeAt (change : Entries → Option Entries) : List String → Entries → Option Entries
  | [], entries => change entries
  | step :: path, entries =>
      match entries.lookup step with
      | none => do
          let inner ← changeAt change path []
          return put step (.table .passedThrough inner) entries
      | some (.table origin inner) => do
          guard (origin ≠ .braces)
          let inner ← changeAt change path inner
          return put step (.table origin inner) entries
      | some (.rows tables) => do
          let tables ← changeLast (changeAt change path) tables
          return put step (.rows tables) entries
      | some _ => none

def giveHeading (fill : Entries → Option Entries) (key : String) (siblings : Entries) :
    Option Entries := do
  let start ← match siblings.lookup key with
    | none => some []
    | some (.table .passedThrough entries) => some entries
    | some _ => none
  return put key (.table .heading (← fill start)) siblings

def addRow (fill : Entries → Option Entries) (key : String) (siblings : Entries) :
    Option Entries := do
  let tables ← match siblings.lookup key with
    | none => some []
    | some (.rows tables) => some tables
    | some _ => none
  return put key (.rows (tables ++ [← fill []])) siblings

end Entries

end BytecodeLowering.Toml
