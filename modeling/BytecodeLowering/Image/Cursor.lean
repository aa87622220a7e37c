import BytecodeLowering.Image.Basic
import BytecodeLowering.Image.Fault
import BytecodeLowering.Image.Word

/-!
# Readers

Reading an image byte by byte.  A reader moves a cursor along the bytes and
either returns a value or stops with an error; the cursor stays where the
reader left it.  Bad data that has a harmless default is noted as a diagnostic
and reading goes on.
-/

namespace BytecodeLowering

open Decimal (Binary64)

structure Cursor where
  rest : Bytes
  offset : Nat := 0
  diagnostics : List Diagnostic := []
  deriving DecidableEq, Repr

def Cursor.remaining (cursor : Cursor) : Nat := cursor.rest.length

/-- A reader keeps the cursor it reached, also when it fails. -/
abbrev Reader := EStateM DecodeError Cursor

namespace Reader

def offset : Reader Nat := return (← get).offset

def remaining : Reader Nat := return (← get).remaining

def fail (fault : DecodeFault) : Reader α := do
  throw ⟨← offset, fault⟩

def diagnose (offset : Nat) (message : String) : Reader Unit :=
  modify fun cursor => { cursor with diagnostics := cursor.diagnostics ++ [⟨offset, message⟩] }

def takeDiagnostics : Reader (List Diagnostic) :=
  modifyGet fun cursor => (cursor.diagnostics, { cursor with diagnostics := [] })

/-- The next `count` bytes; nothing is consumed when there are fewer. -/
def bytes (count : Nat) : Reader Bytes := do
  let cursor ← get
  if cursor.remaining < count then
    fail (.unexpectedEnd count cursor.remaining)
  else
    set { cursor with rest := cursor.rest.drop count, offset := cursor.offset + count }
    return cursor.rest.take count

def byte : Reader UInt8 := do
  let cursor ← get
  match cursor.rest with
  | [] => fail (.unexpectedEnd 1 0)
  | first :: rest =>
      set { cursor with rest, offset := cursor.offset + 1 }
      return first

def int32 : Reader Int := return Word.signed32 (Word.ofBytes (← bytes 4))

def binary64 : Reader Binary64 := return ⟨UInt64.ofNat (Word.ofBytes (← bytes 8))⟩

/-! ## Signed indices of one, two or four bytes

The top bit of the first byte selects a longer form, the next bit the
four-byte one, and the next is the sign; the low five bits start the
magnitude, whose other bytes follow, most significant first.  A single byte is
never negative. -/

def withSign (first : UInt8) (magnitude : Nat) : Int :=
  if first.toNat / 32 % 2 = 1 then -(magnitude : Int) else magnitude

def index : Reader Int := do
  let first ← byte
  if first.toNat < 128 then
    return first.toNat
  else if first.toNat / 64 % 2 = 0 then
    let low ← byte
    return withSign first (first.toNat % 32 * 0x100 + low.toNat)
  else
    let low ← bytes 3
    return withSign first (first.toNat % 32 * 0x1000000 + Word.ofBytes low.reverse)

/-- An index that must not be negative; a negative one counts as zero. -/
def unsignedIndex : Reader Nat := do
  let start ← offset
  match ← index with
  | .ofNat value => return value
  | .negSucc value =>
      diagnose start
        s!"negative value -{value + 1} where an unsigned index was expected"
      return 0

/-- The number of elements that follow.  Every element takes at least a byte,
so more of them than bytes is an error. -/
def count : Reader Nat := do
  let count ← unsignedIndex
  if (← remaining) < count then fail (.invalidCount count) else return count

def times : (count : Nat) → Reader α → Reader (List α)
  | 0, _ => return []
  | count + 1, reader => do
      let first ← reader
      let others ← times count reader
      return first :: others

end Reader

end BytecodeLowering
