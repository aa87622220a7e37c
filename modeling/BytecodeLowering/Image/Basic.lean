import BytecodeLowering.Decimal.Binary64
import BytecodeLowering.Image.FunctionTable
import BytecodeLowering.Image.Opcode
import BytecodeLowering.Image.SourceType

/-!
# Program images

A program image: constant pools, type table, functions, natives and the
initial values of globals, as they are held once read.
-/

namespace BytecodeLowering

open Decimal (Binary64)

structure SourceLine where
  file : Nat
  line : Nat
  deriving DecidableEq, Repr

/-- The source name that a register takes at an instruction; arguments have a
negative position. -/
structure RegisterName where
  name : String
  position : Int
  deriving DecidableEq, Repr

/-- A function with a body.  The first registers are its parameters. -/
structure FunctionDef where
  index : Nat
  type : TypeIndex
  registers : List TypeIndex
  operations : List Operation
  lines : Option (List SourceLine)
  names : List RegisterName
  deriving DecidableEq, Repr

structure Native where
  index : Nat
  library : String
  symbol : String
  type : TypeIndex
  deriving DecidableEq, Repr

/-- The initial value of an object global: one pool index per field. -/
structure Constant where
  global : Nat
  fields : List Nat
  deriving DecidableEq, Repr

structure Diagnostic where
  offset : Nat
  message : String
  deriving DecidableEq, Repr

structure Image where
  version : UInt8
  flags : Nat := 0
  ints : List Int := []
  floats : List Binary64 := []
  strings : List String := []
  bytes : List UInt8 := []
  blobStarts : List Nat := []
  debugFiles : List String := []
  types : List SourceType := []
  globals : List TypeIndex := []
  natives : List Native := []
  functions : List FunctionDef := []
  constants : List Constant := []
  entrypoint : Nat := 0
  functionTable : FunctionTable := .empty
  diagnostics : List Diagnostic := []
  deriving DecidableEq, Repr

namespace Image

def minVersion : UInt8 := 2

def maxVersion : UInt8 := 5

def hasBlobs (version : UInt8) : Bool := 5 ≤ version

def hasConstants (version : UInt8) : Bool := 4 ≤ version

def hasRegisterNames (version : UInt8) : Bool := 3 ≤ version

def flagsDebug (flags : Nat) : Bool := flags % 2 == 1

def hasDebug (image : Image) : Bool := flagsDebug image.flags

def buildTable (functions : List FunctionDef) (natives : List Native) : FunctionTable :=
  FunctionTable.build (functions.map (·.index)) (natives.map (·.index))

def rebuildTable (image : Image) : Image :=
  { image with functionTable := buildTable image.functions image.natives }

def type? (image : Image) (index : TypeIndex) : Option SourceType := image.types[index]?

def signature? (image : Image) (index : TypeIndex) : Option FunctionType :=
  (image.type? index).bind SourceType.signature?

def string? (image : Image) (index : Nat) : Option String := image.strings[index]?

/-- A blob ends where the next larger start lies, or with the block. -/
def blobEnd (image : Image) (start : Nat) : Nat :=
  ((image.blobStarts.filter (start < ·)).min?).getD image.bytes.length

def blob? (image : Image) (index : Nat) : Option (List UInt8) := do
  let start ← image.blobStarts[index]?
  let stop := image.blobEnd start
  if start ≤ stop ∧ stop ≤ image.bytes.length then
    some ((image.bytes.drop start).take (stop - start))
  else none

def callee? (image : Image) (function : Nat) : Option Callee :=
  image.functionTable.resolve? function

def calleeType? (image : Image) (function : Nat) : Option TypeIndex :=
  match image.callee? function with
  | some (.function position) => image.functions[position]?.map (·.type)
  | some (.native position) => image.natives[position]?.map (·.type)
  | none => none

def function? (image : Image) (function : Nat) : Option FunctionDef :=
  match image.callee? function with
  | some (.function position) => image.functions[position]?
  | _ => none

/-- Images are the same when all parts agree and the floats agree as numbers,
so an image that holds a NaN is not the same as itself. -/
def same (a b : Image) : Bool :=
  a.floats.length == b.floats.length
    && (a.floats.zip b.floats).all (fun (x, y) => x.numericallyEqual y)
    && { a with floats := [] } == { b with floats := [] }

end Image

/-- A parameter used as a table index; a negative one designates nothing. -/
def Operation.index? (op : Operation) (i : Nat) : Option Nat := (op.param i).toNat?

def Operation.lookup? (op : Operation) (i : Nat) (table : List α) : Option α :=
  (op.index? i).bind fun index => table[index]?

end BytecodeLowering
