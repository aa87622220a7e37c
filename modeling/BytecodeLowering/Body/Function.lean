import BytecodeLowering.Body.Arithmetic
import BytecodeLowering.Body.Branches
import BytecodeLowering.Body.Calls
import BytecodeLowering.Body.Casts
import BytecodeLowering.Body.Members
import BytecodeLowering.Body.Memory
import BytecodeLowering.Body.Traps
import BytecodeLowering.Body.Values
import BytecodeLowering.Body.Variants

/-!
# Function bodies

Lowering a function body, instruction by instruction.  Operands are
pushed from their registers, converted where the types differ; then the
operation follows, and its result is stored in the target register.
-/

namespace BytecodeLowering

namespace Emit

/-- The code of one instruction.  A negated comparison is taken also when its
operands cannot be ordered, like an unsigned one. -/
def operation (op : Operation) : Emit Unit :=
  let p := op.param
  match op.opcode with
  | .mov => move (p 0) (p 1)
  | .int => intConstant (p 0) (p 1)
  | .float => floatConstant (p 0) (p 1)
  | .bool => boolConstant (p 0) (p 1)
  | .bytes => bytesConstant (p 0) (p 1)
  | .string => stringConstant (p 0) (p 1)
  | .null => nullConstant (p 0)
  | .neg => negate (p 0) (p 1)
  | .not => complement (p 0) (p 1)
  | .incr => stepRegister (p 0) .add
  | .decr => stepRegister (p 0) .sub
  | .add | .sub | .mul | .sDiv | .uDiv | .sMod | .uMod | .shl | .sShr | .uShr | .and | .or
  | .xor => arithmetic op.opcode (p 0) (p 1) (p 2)
  | .call0 | .call1 | .call2 | .call3 | .call4 | .callN =>
      directCall (p 0) (p 1) op.callArguments
  | .callMethod => receiverCall (p 0) (p 1) op.callArguments
  | .callThis => methodCall (p 0) 0 (p 1) op.callArguments
  | .callClosure => closureCall (p 0) (p 1) op.callArguments
  | .staticClosure => staticClosure (p 0) (p 1)
  | .instanceClosure => instanceClosure (p 0) (p 1) (p 2)
  | .virtualClosure => virtualClosure (p 0) (p 1) (p 2)
  | .getGlobal => getGlobal (p 0) (p 1)
  | .setGlobal => setGlobal (p 0) (p 1)
  | .field => getField (p 0) (p 1) (p 2)
  | .setField => setField (p 0) (p 1) (p 2)
  | .getThis => getField (p 0) 0 (p 1)
  | .setThis => setField 0 (p 0) (p 1)
  | .dynGet => getDynamic (p 0) (p 1) (p 2)
  | .dynSet => setDynamic (p 0) (p 1) (p 2)
  | .jTrue => truthBranch (p 0) (p 1) .brTrue
  | .jFalse => truthBranch (p 0) (p 1) .brFalse
  | .jNull => nullBranch (p 0) (p 1)
  | .jNotNull => notNullBranch (p 0) (p 1)
  | .jSLt => compareBranch .lt (p 0) (p 1) (p 2)
  | .jSGte => compareBranch .ge (p 0) (p 1) (p 2)
  | .jSGt => compareBranch .gt (p 0) (p 1) (p 2)
  | .jSLte => compareBranch .le (p 0) (p 1) (p 2)
  | .jULt => compareBranch .ltUn (p 0) (p 1) (p 2)
  | .jUGte => compareBranch .geUn (p 0) (p 1) (p 2)
  | .jNotLt => compareBranch .geUn (p 0) (p 1) (p 2)
  | .jNotGte => compareBranch .ltUn (p 0) (p 1) (p 2)
  | .jEq => compareBranch .eq (p 0) (p 1) (p 2)
  | .jNotEq => compareBranch .ne (p 0) (p 1) (p 2)
  | .jAlways => jump (p 0)
  | .toDyn => move (p 0) (p 1)
  | .toSFloat => toFloat (p 0) (p 1) false
  | .toUFloat => toFloat (p 0) (p 1) true
  | .toInt => toInt (p 0) (p 1)
  | .safeCast => safeCast (p 0) (p 1)
  | .uncheckedCast => cast (p 0) (p 1) false
  | .toVirtual => toVirtual (p 0) (p 1)
  | .label => return ()
  | .ret => ret (p 0)
  | .throw => throwValue (p 0)
  | .rethrow => rethrowValue (p 0)
  | .switch => switchOn (p 0) op.switchOffsets
  | .nullCheck => nullCheck (p 0)
  | .trap => openTrap (p 0) (p 1)
  | .endTrap => closeTrap (p 0)
  | .getI8 => getMemory (p 0) (p 1) (p 2) .u8
  | .getI16 => getMemory (p 0) (p 1) (p 2) .u16
  | .getMem => do getMemory (p 0) (p 1) (p 2) (← memoryWidth (p 0))
  | .getArray => getElement (p 0) (p 1) (p 2)
  | .setI8 => setMemory (p 0) (p 1) (p 2) .u8
  | .setI16 => setMemory (p 0) (p 1) (p 2) .u16
  | .setMem => do setMemory (p 0) (p 1) (p 2) (← memoryWidth (p 2))
  | .setArray => setElement (p 0) (p 1) (p 2)
  | .new => newInstance (p 0)
  | .arraySize => arraySize (p 0) (p 1)
  | .type => typeToken (p 0) (p 1)
  | .getType => typeOfValue (p 0) (p 1)
  | .getTID => kindOfType (p 0) (p 1)
  | .ref => makeBox (p 0) (p 1)
  | .unref => getBoxed (p 0) (p 1)
  | .setref => setBoxed (p 0) (p 1)
  | .makeEnum => makeEnum (p 0) (p 1) op.callArguments
  | .enumAlloc => allocateEnum (p 0) (p 1)
  | .enumIndex => enumIndex (p 0) (p 1)
  | .enumField => getEnumField (p 0) (p 1) (p 2) (p 3)
  | .setEnumField => setEnumField (p 0) (p 1) (p 2)
  | .assert => callRuntime .assert
  | .nop => emit .nop
  | .refData | .refOffset | .prefetch | .asm => gap

def instruction : Operation × Nat → Emit Unit
  | (op, position) => do
      begin position op.opcode
      operation op

def body : Emit (MethodBody × BodyStats) := do
  (← read).function.operations.zipIdx.forM instruction
  finish

end Emit

def FunctionDef.scope (function : FunctionDef) (image : Image) (registry : Registry)
    (settings : Settings) (signature : Signature) : Except LoweringError Scope := do
  let flow ← Flow.analyze function
  Scope.create image registry settings function signature flow

def FunctionDef.lower (function : FunctionDef) (image : Image) (registry : Registry)
    (settings : Settings) (signature : Signature) :
    Except LoweringError (MethodBody × BodyStats) := do
  let scope ← function.scope image registry settings signature
  match Emit.body scope scope.begin with
  | .ok result _ => .ok result
  | .error error _ => .error error

end BytecodeLowering
