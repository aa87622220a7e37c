import BytecodeLowering.Body.Jump

/-!
# Conditional branches

A comparison loads its operands in a common type and branches to the label of the
position that it names.
-/

namespace BytecodeLowering

def TargetType.join (a b : TargetType) : TargetType :=
  if a.isFloat ∨ b.isFloat then .f64 else if a = .i64 ∨ b = .i64 then .i64 else .i32

/-- The type in which two values are compared: a value with a reference as
that value, references of one type as they are, others as objects. -/
def TargetType.comparedAs (a b : TargetType) : TargetType :=
  if a.isValue ∧ b.isValue then a.join b
  else if a.isValue ∧ b ≠ .void then a
  else if b.isValue ∧ a ≠ .void then b
  else if a = b then a
  else .any

def Comparison.isEquality : Comparison → Bool
  | .eq | .ne => true
  | _ => false

namespace Emit

def compareBranch (comparison : Comparison) (left right offset : Int) : Emit Unit := do
  let a ← registerType left
  let b ← registerType right
  let type := a.comparedAs b
  if !type.isValue && !comparison.isEquality then
    unsupported ("ordered comparison of " ++ a.text ++ " and " ++ b.text)
  else
    loadAs left type
    loadAs right type
    branch offset (.branch comparison)

def truthBranch (register offset : Int) (make : Label → Instr) : Emit Unit := do
  let _ ← load register
  branch offset make

/-- An unboxed value is never null. -/
def nullBranch (register offset : Int) : Emit Unit := do
  if !(← registerType register).isValue then truthBranch register offset .brFalse

def notNullBranch (register offset : Int) : Emit Unit := do
  if (← registerType register).isValue then jump offset
  else truthBranch register offset .brTrue

def switchOn (register : Int) (offsets : List Int) : Emit Unit := do
  loadAs register .i32
  switch offsets

end Emit

end BytecodeLowering
