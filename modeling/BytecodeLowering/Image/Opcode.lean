import BytecodeLowering.Image.Word
import BytecodeLowering.Text.Numeral

/-!
# Instructions of an image

The instructions of a program image.  An instruction is one opcode byte and a
list of signed parameters; the opcode fixes how many parameters are written
after it.
-/

namespace BytecodeLowering

inductive Opcode where
  | mov | int | float | bool | bytes | string | null
  | add | sub | mul | sDiv | uDiv | sMod | uMod | shl | sShr | uShr | and | or | xor
  | neg | not | incr | decr
  | call0 | call1 | call2 | call3 | call4 | callN | callMethod | callThis | callClosure
  | staticClosure | instanceClosure | virtualClosure
  | getGlobal | setGlobal | field | setField | getThis | setThis | dynGet | dynSet
  | jTrue | jFalse | jNull | jNotNull | jSLt | jSGte | jSGt | jSLte | jULt | jUGte | jNotLt
  | jNotGte | jEq | jNotEq | jAlways
  | toDyn | toSFloat | toUFloat | toInt | safeCast | uncheckedCast | toVirtual
  | label | ret | throw | rethrow | switch | nullCheck | trap | endTrap
  | getI8 | getI16 | getMem | getArray | setI8 | setI16 | setMem | setArray
  | new | arraySize | type | getType | getTID
  | ref | unref | setref
  | makeEnum | enumAlloc | enumIndex | enumField | setEnumField
  | assert | refData | refOffset | nop | prefetch | asm
  deriving DecidableEq, Repr

/-- How the parameters of an instruction are laid out: a fixed number of them;
two, a count byte and that many arguments; or a register, a counted list of
jump offsets and an end offset. -/
inductive Arity where
  | fixed (count : Nat)
  | callLike
  | switch
  deriving DecidableEq, Repr

namespace Opcode

/-- The opcodes in the order of their bytes. -/
def all : List Opcode := [
    .mov, .int, .float, .bool, .bytes, .string, .null,
    .add, .sub, .mul, .sDiv, .uDiv, .sMod, .uMod, .shl, .sShr, .uShr, .and, .or, .xor,
    .neg, .not, .incr, .decr,
    .call0, .call1, .call2, .call3, .call4, .callN, .callMethod, .callThis, .callClosure,
    .staticClosure, .instanceClosure, .virtualClosure,
    .getGlobal, .setGlobal, .field, .setField, .getThis, .setThis, .dynGet, .dynSet,
    .jTrue, .jFalse, .jNull, .jNotNull, .jSLt, .jSGte, .jSGt, .jSLte, .jULt, .jUGte, .jNotLt,
    .jNotGte, .jEq, .jNotEq, .jAlways,
    .toDyn, .toSFloat, .toUFloat, .toInt, .safeCast, .uncheckedCast, .toVirtual,
    .label, .ret, .throw, .rethrow, .switch, .nullCheck, .trap, .endTrap,
    .getI8, .getI16, .getMem, .getArray, .setI8, .setI16, .setMem, .setArray,
    .new, .arraySize, .type, .getType, .getTID,
    .ref, .unref, .setref,
    .makeEnum, .enumAlloc, .enumIndex, .enumField, .setEnumField,
    .assert, .refData, .refOffset, .nop, .prefetch, .asm]

def byte (opcode : Opcode) : UInt8 := UInt8.ofNat opcode.ctorIdx

def ofByte? (byte : UInt8) : Option Opcode := all[byte.toNat]?

@[simp] theorem ofByte?_byte (opcode : Opcode) : ofByte? opcode.byte = some opcode := by
  cases opcode <;> rfl

def arity : Opcode → Arity
  | .label | .assert | .nop => .fixed 0
  | .null | .incr | .decr | .jAlways | .ret | .throw | .rethrow | .nullCheck | .endTrap | .new => .fixed 1
  | .mov | .int | .float | .bool | .bytes | .string | .neg | .not | .call0 | .staticClosure
  | .getGlobal | .setGlobal | .getThis | .setThis | .jTrue | .jFalse | .jNull | .jNotNull
  | .toDyn | .toSFloat | .toUFloat | .toInt | .safeCast | .uncheckedCast | .toVirtual | .trap
  | .arraySize | .type | .getType | .getTID | .ref | .unref | .setref | .enumAlloc | .enumIndex
  | .refData => .fixed 2
  | .add | .sub | .mul | .sDiv | .uDiv | .sMod | .uMod | .shl | .sShr | .uShr | .and | .or
  | .xor | .call1 | .instanceClosure | .virtualClosure | .field | .setField | .dynGet | .dynSet
  | .jSLt | .jSGte | .jSGt | .jSLte | .jULt | .jUGte | .jNotLt | .jNotGte | .jEq | .jNotEq
  | .getI8 | .getI16 | .getMem | .getArray | .setI8 | .setI16 | .setMem | .setArray
  | .setEnumField | .refOffset | .prefetch | .asm => .fixed 3
  | .call2 | .enumField => .fixed 4
  | .call3 => .fixed 5
  | .call4 => .fixed 6
  | .callN | .callMethod | .callThis | .callClosure | .makeEnum => .callLike
  | .switch => .switch

def mnemonic : Opcode → String
  | .mov => "mov"
  | .int => "int"
  | .float => "float"
  | .bool => "bool"
  | .bytes => "bytes"
  | .string => "string"
  | .null => "null"
  | .add => "add"
  | .sub => "sub"
  | .mul => "mul"
  | .sDiv => "sdiv"
  | .uDiv => "udiv"
  | .sMod => "smod"
  | .uMod => "umod"
  | .shl => "shl"
  | .sShr => "sshr"
  | .uShr => "ushr"
  | .and => "and"
  | .or => "or"
  | .xor => "xor"
  | .neg => "neg"
  | .not => "not"
  | .incr => "incr"
  | .decr => "decr"
  | .call0 => "call0"
  | .call1 => "call1"
  | .call2 => "call2"
  | .call3 => "call3"
  | .call4 => "call4"
  | .callN => "calln"
  | .callMethod => "callmethod"
  | .callThis => "callthis"
  | .callClosure => "callclosure"
  | .staticClosure => "staticclosure"
  | .instanceClosure => "instanceclosure"
  | .virtualClosure => "virtualclosure"
  | .getGlobal => "getglobal"
  | .setGlobal => "setglobal"
  | .field => "field"
  | .setField => "setfield"
  | .getThis => "getthis"
  | .setThis => "setthis"
  | .dynGet => "dynget"
  | .dynSet => "dynset"
  | .jTrue => "jtrue"
  | .jFalse => "jfalse"
  | .jNull => "jnull"
  | .jNotNull => "jnotnull"
  | .jSLt => "jslt"
  | .jSGte => "jsgte"
  | .jSGt => "jsgt"
  | .jSLte => "jslte"
  | .jULt => "jult"
  | .jUGte => "jugte"
  | .jNotLt => "jnotlt"
  | .jNotGte => "jnotgte"
  | .jEq => "jeq"
  | .jNotEq => "jnoteq"
  | .jAlways => "jalways"
  | .toDyn => "todyn"
  | .toSFloat => "tosfloat"
  | .toUFloat => "toufloat"
  | .toInt => "toint"
  | .safeCast => "safecast"
  | .uncheckedCast => "unsafecast"
  | .toVirtual => "tovirtual"
  | .label => "label"
  | .ret => "ret"
  | .throw => "throw"
  | .rethrow => "rethrow"
  | .switch => "switch"
  | .nullCheck => "nullcheck"
  | .trap => "trap"
  | .endTrap => "endtrap"
  | .getI8 => "geti8"
  | .getI16 => "geti16"
  | .getMem => "getmem"
  | .getArray => "getarray"
  | .setI8 => "seti8"
  | .setI16 => "seti16"
  | .setMem => "setmem"
  | .setArray => "setarray"
  | .new => "new"
  | .arraySize => "arraysize"
  | .type => "type"
  | .getType => "gettype"
  | .getTID => "gettid"
  | .ref => "ref"
  | .unref => "unref"
  | .setref => "setref"
  | .makeEnum => "makeenum"
  | .enumAlloc => "enumalloc"
  | .enumIndex => "enumindex"
  | .enumField => "enumfield"
  | .setEnumField => "setenumfield"
  | .assert => "assert"
  | .refData => "refdata"
  | .refOffset => "refoffset"
  | .nop => "nop"
  | .prefetch => "prefetch"
  | .asm => "asm"

def fixedCallArguments? : Opcode → Option Nat
  | .call0 => some 0
  | .call1 => some 1
  | .call2 => some 2
  | .call3 => some 3
  | .call4 => some 4
  | _ => none

def isBranch : Opcode → Bool
  | .jTrue | .jFalse | .jNull | .jNotNull | .jSLt | .jSGte | .jSGt | .jSLte | .jULt | .jUGte
  | .jNotLt | .jNotGte | .jEq | .jNotEq | .jAlways | .switch | .trap => true
  | _ => false

end Opcode

/-! ## Instructions -/

structure Operation where
  opcode : Opcode
  params : List Int
  deriving DecidableEq, Repr

namespace Operation

/-- Parameter `i`; one that is missing counts as zero. -/
def param (op : Operation) (i : Nat) : Int := op.params.getD i 0

def callArguments (op : Operation) : List Int := op.params.drop 2

def switchOffsets (op : Operation) : List Int :=
  if op.opcode = .switch then (op.params.drop 1).dropLast else []

def branchOffsets (op : Operation) : List Int :=
  match op.opcode with
  | .jAlways => [op.param 0]
  | .jTrue | .jFalse | .jNull | .jNotNull | .trap => [op.param 1]
  | .jSLt | .jSGte | .jSGt | .jSLte | .jULt | .jUGte | .jNotLt | .jNotGte | .jEq | .jNotEq =>
      [op.param 2]
  | .switch => op.switchOffsets
  | _ => []

/-- Where an offset leads from the instruction at a position.  The position
counts as a signed 64-bit word, so past the largest one it is negative. -/
def branchTarget (position : Nat) (offset : Int) : Int :=
  Word.signed64 position + 1 + offset

def text (op : Operation) : String :=
  match op.params with
  | [] => op.opcode.mnemonic
  | params => op.opcode.mnemonic ++ " " ++ Text.commaSeparated (params.map Text.decimal)

end Operation

end BytecodeLowering
