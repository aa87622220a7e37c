import BytecodeLowering.Image.LineTable

/-!
# Writing an image

Writing an image, part by part: each part of an image has its bytes, unless an
index or a count does not fit its field or a name is missing from the string
pool.  The first such part, in the order of the bytes, gives the error.
-/

namespace BytecodeLowering

open Decimal (Binary64)

namespace Writer

abbrev Result := Except EncodeError Bytes

def join : List Result → Result
  | [] => .ok []
  | part :: parts => do
      let bytes ← part
      let others ← join parts
      return bytes ++ others

def each (write : α → Result) (items : List α) : Result := join (items.map write)

def onlyIf (present : Bool) (part : Result) : Result := if present then part else .ok []

/-! ## Words and indices -/

def int32 (value : Int) : Bytes := Word.toBytes 4 (Word.unsigned32 value)

def binary64 (value : Binary64) : Bytes := Word.toBytes 8 value.bits.toNat

/-- The largest magnitude that the four-byte form of an index can hold. -/
def maxMagnitude : Nat := 0x1FFFFFFF

def signBit (value : Int) : Nat := if value < 0 then 32 else 0

def index (value : Int) : Result :=
  let magnitude := value.natAbs
  if 0 ≤ value ∧ magnitude < 128 then .ok [UInt8.ofNat magnitude]
  else if magnitude < 0x2000 then
    .ok [UInt8.ofNat (128 + signBit value + magnitude / 0x100), UInt8.ofNat magnitude]
  else if magnitude ≤ maxMagnitude then
    .ok [UInt8.ofNat (192 + signBit value + magnitude / 0x1000000),
      UInt8.ofNat (magnitude / 0x10000), UInt8.ofNat (magnitude / 0x100), UInt8.ofNat magnitude]
  else .error (.indexOutOfRange value)

/-- Machine words are compared as signed numbers and cut to 32 bits, so a word
with its top bit set is written as a short signed index. -/
def unsignedIndex (value : Nat) : Result :=
  let word := Word.signed64 value
  if (maxMagnitude : Int) < word then .error (.indexOutOfRange word)
  else index (Word.signed32 value)

def byteCount (what : String) (count : Nat) : Result :=
  if count ≤ 255 then .ok [UInt8.ofNat count] else .error (.countTooLarge what count)

/-! ## Pools -/

def terminated (text : String) : Bytes := text.toUTF8.toList ++ [0]

def stringPool (strings : List String) : Result :=
  let block := strings.flatMap terminated
  join [.ok (int32 block.length ++ block), each (fun text => unsignedIndex text.utf8ByteSize) strings]

def blobPool (bytes : Bytes) (starts : List Nat) : Result :=
  join [.ok (int32 bytes.length ++ bytes), each unsignedIndex starts]

/-! ## Types -/

/-- A name stands for the place of its first occurrence in the pool. -/
def string (strings : List String) (text : String) : Result :=
  match strings.idxOf? text with
  | some position => index (Word.signed32 position)
  | none => .error (.missingString text)

def global (number : Option Nat) : Result :=
  unsignedIndex (number.elim 0 (· + 1))

def superType : Option TypeIndex → Result
  | some super => index (Word.signed32 super)
  | none => index (-1)

def field (strings : List String) (field : Field) : Result :=
  join [string strings field.name, unsignedIndex field.type]

def functionType (signature : FunctionType) : Result :=
  join [
    byteCount "arguments" signature.args.length,
    each unsignedIndex signature.args,
    unsignedIndex signature.ret]

def prototype (strings : List String) (prototype : Prototype) : Result :=
  join [
    string strings prototype.name,
    unsignedIndex prototype.function,
    index prototype.slot]

def binding (binding : Binding) : Result :=
  join [unsignedIndex binding.field, unsignedIndex binding.function]

def objectType (strings : List String) (object : ObjectType) : Result :=
  join [
    string strings object.name,
    superType object.super,
    global object.global,
    unsignedIndex object.fields.length,
    unsignedIndex object.prototypes.length,
    unsignedIndex object.bindings.length,
    each (field strings) object.fields,
    each (prototype strings) object.prototypes,
    each binding object.bindings]

def enumConstruct (strings : List String) (construct : EnumConstruct) : Result :=
  join [
    string strings construct.name,
    unsignedIndex construct.params.length,
    each unsignedIndex construct.params]

def enumType (strings : List String) (variants : EnumType) : Result :=
  join [
    string strings variants.name,
    global variants.global,
    byteCount "constructs" variants.constructs.length,
    each (enumConstruct strings) variants.constructs]

def payload (strings : List String) : SourceType → Result
  | .func signature | .method signature => functionType signature
  | .obj object | .struct object => objectType strings object
  | .ref inner | .null inner | .packed inner => unsignedIndex inner
  | .virtual fields => join [unsignedIndex fields.length, each (field strings) fields]
  | .abstract name => string strings name
  | .enum variants => enumType strings variants
  | _ => .ok []

def sourceType (strings : List String) (shape : SourceType) : Result :=
  join [.ok [shape.kind.byte], payload strings shape]

/-! ## Functions -/

def native (strings : List String) (native : Native) : Result :=
  join [
    string strings native.library,
    string strings native.symbol,
    unsignedIndex native.type,
    unsignedIndex native.index]

/-- Parameters that the layout has no room for are left out, missing ones are
written as zero, and the parameters of a switch are never negative. -/
def params (op : Operation) : Result :=
  match op.opcode.arity with
  | .fixed count => each (fun i => index (op.param i)) (List.range count)
  | .callLike => do
      let count ← byteCount "call arguments" op.callArguments.length
      join [index (op.param 0), index (op.param 1), .ok count, each index op.callArguments]
  | .switch =>
      join [
        unsignedIndex (op.param 0).toNat,
        unsignedIndex op.switchOffsets.length,
        each (fun offset => unsignedIndex offset.toNat) op.switchOffsets,
        unsignedIndex (op.params.getLastD 0).toNat]

def operation (op : Operation) : Result :=
  join [.ok [op.opcode.byte], params op]

def registerName (strings : List String) (name : RegisterName) : Result :=
  join [string strings name.name, index name.position]

def functionDef (image : Image) (function : FunctionDef) : Result :=
  join [
    unsignedIndex function.type,
    unsignedIndex function.index,
    unsignedIndex function.registers.length,
    unsignedIndex function.operations.length,
    each unsignedIndex function.registers,
    each operation function.operations,
    onlyIf image.hasDebug (.ok (LineTable.write (function.lines.getD []))),
    onlyIf (image.hasDebug && Image.hasRegisterNames image.version)
      (join [
        unsignedIndex function.names.length,
        each (registerName image.strings) function.names])]

def constant (constant : Constant) : Result :=
  join [
    unsignedIndex constant.global,
    unsignedIndex constant.fields.length,
    each unsignedIndex constant.fields]

/-! ## The image -/

def header (image : Image) : Result :=
  join [
    .ok [0x48, 0x4C, 0x42, image.version],
    unsignedIndex image.flags,
    unsignedIndex image.ints.length,
    unsignedIndex image.floats.length,
    unsignedIndex image.strings.length,
    onlyIf (Image.hasBlobs image.version) (unsignedIndex image.blobStarts.length),
    unsignedIndex image.types.length,
    unsignedIndex image.globals.length,
    unsignedIndex image.natives.length,
    unsignedIndex image.functions.length,
    onlyIf (Image.hasConstants image.version) (unsignedIndex image.constants.length),
    unsignedIndex image.entrypoint]

def pools (image : Image) : Result :=
  join [
    .ok (image.ints.flatMap int32),
    .ok (image.floats.flatMap binary64),
    stringPool image.strings,
    onlyIf (Image.hasBlobs image.version) (blobPool image.bytes image.blobStarts),
    onlyIf image.hasDebug
      (join [unsignedIndex image.debugFiles.length, stringPool image.debugFiles])]

end Writer

def Image.encode (image : Image) : Except EncodeError Bytes :=
  Writer.join [
    Writer.header image,
    Writer.pools image,
    Writer.each (Writer.sourceType image.strings) image.types,
    Writer.each Writer.unsignedIndex image.globals,
    Writer.each (Writer.native image.strings) image.natives,
    Writer.each (Writer.functionDef image) image.functions,
    Writer.onlyIf (Image.hasConstants image.version) (Writer.each Writer.constant image.constants)]

end BytecodeLowering
