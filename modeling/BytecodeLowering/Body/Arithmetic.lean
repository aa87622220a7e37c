import BytecodeLowering.Body.Coercion

/-!
# Arithmetic

Operands are brought to the type of the target register, and a result for an
8-bit or 16-bit register is cut back to its width.
-/

namespace BytecodeLowering

def Opcode.binaryOp? (isFloat : Bool) : Opcode → Option BinaryOp
  | .add => some .add
  | .sub => some .sub
  | .mul => some .mul
  | .sDiv => some .div
  | .uDiv => some (if isFloat then .div else .divUn)
  | .sMod => some .rem
  | .uMod => some (if isFloat then .rem else .remUn)
  | .shl => if isFloat then none else some .shl
  | .sShr => if isFloat then none else some .shr
  | .uShr => if isFloat then none else some .shrUn
  | .and => if isFloat then none else some .and
  | .or => if isFloat then none else some .or
  | .xor => if isFloat then none else some .xor
  | _ => none

def Opcode.isShift : Opcode → Bool
  | .shl | .sShr | .uShr => true
  | _ => false

namespace Emit

/-- Cuts a 32-bit result back to a narrow register. -/
def wrap : TargetType → Emit Unit
  | .u8 => emit (.conv .u1)
  | .u16 => emit (.conv .u2)
  | _ => return ()

def floatOne : Decimal.Binary64 := ⟨0x3FF0000000000000⟩

def one : TargetType → Instr
  | .i64 => .ldcI8 1
  | .f32 | .f64 => .ldcR8 floatOne
  | _ => .ldcI4 1

def arithmeticType (target : Int) : Emit TargetType := do
  let type ← registerType target
  if type.isValue then return type else unsupported ("arithmetic on " ++ type.text)

def negate (target source : Int) : Emit Unit := do
  let type ← arithmeticType target
  loadAs source type
  emit (.unary .neg)
  wrap type
  store target

def complement (target source : Int) : Emit Unit := do
  let type ← arithmeticType target
  loadAs source type
  if type = .bool then
    emit (.ldcI4 1)
    emit (.binary .xor)
  else if type.isFloat then unsupported ("not on " ++ type.text)
  else
    emit (.unary .not)
    wrap type
  store target

def stepRegister (target : Int) (op : BinaryOp) : Emit Unit := do
  let type ← arithmeticType target
  let _ ← load target
  emit (one type)
  emit (.binary op)
  wrap type
  store target

def arithmetic (opcode : Opcode) (target left right : Int) : Emit Unit := do
  let type ← arithmeticType target
  let op ← orUnsupported (opcode.binaryOp? type.isFloat) (opcode.mnemonic ++ " on " ++ type.text)
  loadAs left type
  loadAs right (if opcode.isShift then .i32 else type)
  emit (.binary op)
  wrap type
  store target

end Emit

end BytecodeLowering
