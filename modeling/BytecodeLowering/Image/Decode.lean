import BytecodeLowering.Image.LineTable

/-!
# Reading an image

Reading a whole image.  A bad header, an unknown tag or a missing byte ends the
reading; an index into the string pool or the type table that is out of range
counts as zero and leaves a diagnostic.
-/

namespace BytecodeLowering

open Decimal (Binary64)

namespace Reader

/-! ## Pools -/

def block : Reader Bytes := do
  let size ← int32
  if size < 0 then fail (.invalidCount size) else bytes size.toNat

/-- Cuts the strings numbered `index` and on out of a block, by lengths that
follow it.  One byte separates a string from the next. -/
def slices (block : Bytes) : (count index start : Nat) → Reader (List String)
  | 0, _, _ => return []
  | count + 1, index, start => do
      let stop := start + (← unsignedIndex)
      if block.length < stop then
        fail (.stringOutOfBlock index stop block.length)
      else
        match String.fromUTF8? ⟨((block.drop start).take (stop - start)).toArray⟩ with
        | none => fail (.invalidUtf8 index)
        | some first =>
            let others ← slices block count (index + 1) (stop + 1)
            return first :: others

def stringPool (count : Nat) : Reader (List String) := do
  slices (← block) count 0 0

/-- The start of a blob; one past the block counts as zero. -/
def blobStart (size : Nat) : Reader Nat := do
  let here ← offset
  let start ← unsignedIndex
  if size < start then
    diagnose here s!"blob start {start} past block of {size} bytes"
    return 0
  else return start

def blobPool (count : Nat) : Reader (Bytes × List Nat) := do
  let block ← block
  let starts ← times count (blobStart block.length)
  return (block, starts)

/-! ## Types -/

structure Tables where
  strings : List String
  typeCount : Nat
  deriving DecidableEq, Repr

def string (tables : Tables) : Reader String := do
  let here ← offset
  let index ← index
  match index.toNat?.bind (tables.strings[·]?) with
  | some text => return text
  | none =>
      diagnose here ("string index " ++ Text.decimal index ++ " out of range")
      return tables.strings.headD ""

def checkTypeIndex (tables : Tables) (here : Nat) (index : Int) : Reader TypeIndex := do
  if 0 ≤ index ∧ index < tables.typeCount then return index.toNat
  else
    diagnose here ("type index " ++ Text.decimal index ++ " out of range")
    return 0

def typeIndex (tables : Tables) : Reader TypeIndex := do
  let here ← offset
  checkTypeIndex tables here (← index)

/-- A global is written as its number plus one, and zero stands for none. -/
def globalIndex : Reader (Option Nat) := do
  match ← unsignedIndex with
  | 0 => return none
  | global + 1 => return some global

def field (tables : Tables) : Reader Field := do
  let name ← string tables
  let type ← typeIndex tables
  return { name, type }

def functionType (tables : Tables) : Reader FunctionType := do
  let args ← times (← byte).toNat (typeIndex tables)
  let ret ← typeIndex tables
  return { args, ret }

def prototype (tables : Tables) : Reader Prototype := do
  let name ← string tables
  let function ← unsignedIndex
  let slot ← index
  return { name, function, slot }

def binding : Reader Binding := do
  let field ← unsignedIndex
  let function ← unsignedIndex
  return { field, function }

def superType (tables : Tables) : Reader (Option TypeIndex) := do
  let here ← offset
  let index ← index
  if index < 0 then return none else return some (← checkTypeIndex tables here index)

def objectType (tables : Tables) : Reader ObjectType := do
  let name ← string tables
  let super ← superType tables
  let global ← globalIndex
  let fieldCount ← count
  let prototypeCount ← count
  let bindingCount ← count
  let fields ← times fieldCount (field tables)
  let prototypes ← times prototypeCount (prototype tables)
  let bindings ← times bindingCount binding
  return { name, super, global, fields, prototypes, bindings }

def enumConstruct (tables : Tables) : Reader EnumConstruct := do
  let name ← string tables
  let params ← times (← count) (typeIndex tables)
  return { name, params }

def enumType (tables : Tables) : Reader EnumType := do
  let name ← string tables
  let global ← globalIndex
  let constructs ← times (← byte).toNat (enumConstruct tables)
  return { name, global, constructs }

def typeOfKind (tables : Tables) : TypeKind → Reader SourceType
  | .void => return .void
  | .u8 => return .u8
  | .u16 => return .u16
  | .i32 => return .i32
  | .i64 => return .i64
  | .f32 => return .f32
  | .f64 => return .f64
  | .bool => return .bool
  | .bytes => return .bytes
  | .dyn => return .dyn
  | .array => return .array
  | .type => return .type
  | .dynObj => return .dynObj
  | .func => return .func (← functionType tables)
  | .method => return .method (← functionType tables)
  | .obj => return .obj (← objectType tables)
  | .struct => return .struct (← objectType tables)
  | .ref => return .ref (← typeIndex tables)
  | .null => return .null (← typeIndex tables)
  | .packed => return .packed (← typeIndex tables)
  | .virtual => return .virtual (← times (← count) (field tables))
  | .abstract => return .abstract (← string tables)
  | .enum => return .enum (← enumType tables)

def sourceType (tables : Tables) : Reader SourceType := do
  let tag ← byte
  match TypeKind.ofByte? tag with
  | none => fail (.unknownTypeKind tag)
  | some kind => typeOfKind tables kind

/-! ## Functions -/

def functionIndex (size : Nat) : Reader Nat := do
  let function ← unsignedIndex
  if function < size then return function else fail (.invalidFunctionIndex function size)

def native (tables : Tables) (size : Nat) : Reader Native := do
  let library ← string tables
  let symbol ← string tables
  let type ← typeIndex tables
  let index ← functionIndex size
  return { index, library, symbol, type }

def params : Arity → Reader (List Int)
  | .fixed count => times count index
  | .callLike => do
      let first ← index
      let second ← index
      let args ← times (← byte).toNat index
      return first :: second :: args
  | .switch => do
      let register ← unsignedIndex
      let offsets ← times (← count) unsignedIndex
      let stop ← unsignedIndex
      return (register :: offsets ++ [stop]).map Int.ofNat

def operation : Reader Operation := do
  let byte ← byte
  match Opcode.ofByte? byte with
  | none => fail (.unknownOpcode byte)
  | some opcode => return { opcode, params := ← params opcode.arity }

def registerName (tables : Tables) : Reader RegisterName := do
  let name ← string tables
  let position ← index
  return { name, position }

structure Layout where
  version : UInt8
  debug : Bool
  indexSpace : Nat
  fileCount : Nat
  deriving DecidableEq, Repr

def functionLines (layout : Layout) (function total : Nat) :
    Reader (Option (List SourceLine)) := do
  if layout.debug then
    let extent := { function := Word.unsigned32 function, total, fileCount := layout.fileCount }
    return some (← LineTable.read extent)
  else return none

def functionNames (layout : Layout) (tables : Tables) : Reader (List RegisterName) := do
  if layout.debug && Image.hasRegisterNames layout.version then
    times (← count) (registerName tables)
  else return []

def functionDef (layout : Layout) (tables : Tables) : Reader FunctionDef := do
  let type ← typeIndex tables
  let index ← functionIndex layout.indexSpace
  let registerCount ← count
  let operationCount ← count
  let registers ← times registerCount (typeIndex tables)
  let operations ← times operationCount operation
  let lines ← functionLines layout index operationCount
  let names ← functionNames layout tables
  return { index, type, registers, operations, lines, names }

def constant : Reader Constant := do
  let global ← unsignedIndex
  let fields ← times (← count) unsignedIndex
  return { global, fields }

/-! ## The image -/

def magic : Bytes := [0x48, 0x4C, 0x42]

def header : Reader UInt8 := do
  let found ← bytes 3
  if found = magic then
    let version ← byte
    if Image.minVersion ≤ version ∧ version ≤ Image.maxVersion then return version
    else throw ⟨3, .unsupportedVersion version Image.minVersion Image.maxVersion⟩
  else throw ⟨0, .badMagic found⟩

structure Counts where
  ints : Nat
  floats : Nat
  strings : Nat
  blobs : Nat
  types : Nat
  globals : Nat
  natives : Nat
  functions : Nat
  constants : Nat
  deriving DecidableEq, Repr

def countIf (present : Bool) : Reader Nat := if present then count else return 0

def counts (version : UInt8) : Reader Counts := do
  let ints ← count
  let floats ← count
  let strings ← count
  let blobs ← countIf (Image.hasBlobs version)
  let types ← count
  let globals ← count
  let natives ← count
  let functions ← count
  let constants ← countIf (Image.hasConstants version)
  return { ints, floats, strings, blobs, types, globals, natives, functions, constants }

def blobs (version : UInt8) (count : Nat) : Reader (Bytes × List Nat) :=
  if Image.hasBlobs version then blobPool count else return ([], [])

def debugFiles (debug : Bool) : Reader (List String) := do
  if debug then stringPool (← count) else return []

/-- An image whose entry point names no function is read, with a remark. -/
def checkEntrypoint (table : FunctionTable) (entrypoint : Nat) : Reader Unit := do
  if (table.resolve? entrypoint).isNone then
    diagnose (← offset) s!"entrypoint {entrypoint} does not name a function"

def contents : Reader Image := do
  let version ← header
  let flags ← unsignedIndex
  let counts ← counts version
  let entrypoint ← unsignedIndex
  let debug := Image.flagsDebug flags
  let ints ← times counts.ints int32
  let floats ← times counts.floats binary64
  let strings ← stringPool counts.strings
  let (bytes, blobStarts) ← blobs version counts.blobs
  let debugFiles ← debugFiles debug
  let tables := { strings, typeCount := counts.types }
  let types ← times counts.types (sourceType tables)
  let globals ← times counts.globals (typeIndex tables)
  let indexSpace := counts.functions + counts.natives
  let natives ← times counts.natives (native tables indexSpace)
  let layout := { version, debug, indexSpace, fileCount := debugFiles.length }
  let functions ← times counts.functions (functionDef layout tables)
  let constants ← times counts.constants constant
  return {
    version, flags, ints, floats, strings, bytes, blobStarts, debugFiles, types, globals,
    natives, functions, constants, entrypoint
    functionTable := Image.buildTable functions natives }

def image : Reader Image := do
  let image ← contents
  checkEntrypoint image.functionTable image.entrypoint
  return { image with diagnostics := ← takeDiagnostics }

end Reader

/-- Reads an image; bytes after its end are ignored. -/
def Image.decode (bytes : Bytes) : Except DecodeError Image :=
  match Reader.image { rest := bytes } with
  | .ok image _ => .ok image
  | .error error _ => .error error

end BytecodeLowering
